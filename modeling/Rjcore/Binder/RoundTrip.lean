import Rjcore.Binder.Stub

/-!
# Round trips over the binder

A call travels from the proxy to the stub and its result travels back. Every method agrees
with its proxy on the transaction code, on the number and types of the arguments, and on
the type of the result; what is left is the order in which the stub reads the arguments.
A call is delivered faithfully exactly when that order deals every argument an equal value.
-/

namespace Rjcore

open Interaction

variable {lib : Libbinder} {order : EvalOrder}

/-- The arguments of a call, in order. -/
structure Arguments where
  /-- How many there are. -/
  count : Nat
  /-- Their types. -/
  types : Fin count → ArgType
  /-- Their values. -/
  values : ∀ position, (types position).Val

namespace Arguments

/-- An argument as it is written. -/
def item (arguments : Arguments) (position : Fin arguments.count) : Item :=
  (arguments.types position).item (arguments.values position)

/-- Arguments that agree in every position are equal. -/
theorem ext_values {count : Nat} {types : Fin count → ArgType}
    {left right : ∀ position, (types position).Val}
    (same : ∀ position, left position = right position) :
    (⟨count, types, left⟩ : Arguments) = ⟨count, types, right⟩ :=
  congrArg (Arguments.mk count types) (funext same)

end Arguments

namespace Call

/-- The arguments of a call in the order of the parameters. -/
def arguments : Call → Arguments
  | .setPowerState powerState => ⟨1, ![.int32], fun | 0 => powerState⟩
  | .collectLogFiles_block zipFilename => ⟨1, ![.string16], fun | 0 => zipFilename⟩
  | .chmodFile path mode => ⟨2, ![.string16, .string16], fun | 0 => path | 1 => mode⟩
  | .chmodDir path mode => ⟨2, ![.string16, .string16], fun | 0 => path | 1 => mode⟩
  | .rmFile path => ⟨1, ![.string16], fun | 0 => path⟩
  | .getLedStatus color => ⟨1, ![.int32], fun | 0 => color⟩
  | .setLedStatus color state => ⟨2, ![.int32, .int32], fun | 0 => color | 1 => state⟩
  | .setDeviceResolution xres yres refresh flag =>
    ⟨4, ![.int32, .int32, .int32, .int32], fun | 0 => xres | 1 => yres | 2 => refresh | 3 => flag⟩
  | .getPropertyValue key => ⟨1, ![.string16], fun | 0 => key⟩
  | .checkIpConflict_block ip => ⟨1, ![.string16], fun | 0 => ip⟩
  | .ping_block ip count timeout deadline =>
    ⟨4, ![.string16, .int32, .int32, .int32],
      fun | 0 => ip | 1 => count | 2 => timeout | 3 => deadline⟩
  | .checkBandwidth_block serverIp user code =>
    ⟨3, ![.string16, .string16, .string16], fun | 0 => serverIp | 1 => user | 2 => code⟩
  | .isProcessRunning processname => ⟨1, ![.string16], fun | 0 => processname⟩
  | .getProcessId processname => ⟨1, ![.string16], fun | 0 => processname⟩
  | .killByProcessName processname => ⟨1, ![.string16], fun | 0 => processname⟩
  | _ => ⟨0, ![], finZeroElim⟩

/-- The `j`-th read yields what was written `j`-th; the argument in whose place it is done
has to be an equal value. -/
def InOrder (order : EvalOrder) (call : Call) : Prop :=
  ∀ j, call.arguments.item (order call.code call.arguments.count j) = call.arguments.item j

instance (call : Call) : Decidable (call.InOrder order) := inferInstanceAs (Decidable (∀ _, _))

end Call

/-- A service that answers by a function of the call and keeps the calls it received. -/
def recorded (serve : (call : Call) → call.Ret) (log : List Call) (call : Call) :
    call.Ret × List Call :=
  (serve call, log ++ [call])

/-- The binder driver: hand a request to the stub and its reply back. -/
def transport (lib : Libbinder) (order : EvalOrder) (serve : (call : Call) → call.Ret)
    (log : List Call) (transaction : UInt32 × lib.Parcel) : lib.Parcel × List Call :=
  let handled := (BnRjcoreService.onTransact lib order transaction.1
    (lib.deliver transaction.2) lib.empty).runWith (recorded serve) log
  (lib.deliver handled.1.2, handled.2)

/-- The result of a call made through the proxy, and the calls the service received. -/
def roundTrip (lib : Libbinder) (order : EvalOrder) (serve : (call : Call) → call.Ret)
    (call : Call) : call.Ret × List Call :=
  (BpRjcoreService.invoke lib call).runWith (transport lib order serve) []

/-! ## The two directions -/

/-- The stub accepts what the proxy wrote and is left with the arguments. -/
theorem checkInterface_request (args : List Item) (reply : lib.Parcel) :
    ∃ data, lib.Unread data args ∧ ∀ body,
      BnRjcoreService.checkInterface lib (lib.deliver (BpRjcoreService.request lib args)) reply
        body = body data := by
  have unread : lib.Unread (lib.deliver (BpRjcoreService.request lib args))
      (.token interfaceDescriptor :: args) :=
    Libbinder.unread_writes (lib.unread_token interfaceDescriptor lib.unread_deliver_empty) args
  obtain ⟨accepted, rest⟩ := lib.check_token unread
  refine ⟨_, rest, fun body => ?_⟩
  unfold BnRjcoreService.checkInterface
  rw [if_pos accepted]

/-- The proxy decodes the result the stub wrote. -/
theorem readReply_writeReply (type : ReplyType) (result : type.Val) :
    BpRjcoreService.readReply lib type (lib.readExceptionCode
      (lib.deliver (BnRjcoreService.writeReply lib lib.empty type result).2)).2 = result := by
  have marked := lib.unread_noException lib.unread_deliver_empty
  cases type with
  | void => rfl
  | int32 => exact (lib.read_int32 (lib.read_noException (lib.unread_int32 result marked))).1
  | bool =>
    have value := (lib.read_int32 (lib.read_noException
      (lib.unread_int32 (if result then 1 else 0) marked))).1
    simp only [BpRjcoreService.readReply, BnRjcoreService.writeReply]
    rw [value]
    cases result <;> rfl
  | string16 =>
    exact (lib.read_string16 (lib.read_noException (lib.unread_string16 result marked))).1

/-! ## One method -/

section Method

variable {code : TransactionCode} {count : Nat} {types : Fin count → ArgType}
  {build : (∀ position, (types position).Val) → Call}

/-- What a method of the proxy and its `case` in the stub have to agree on: the code, the
types of the arguments in order, the method invoked, and the type of the result. -/
structure Marshals (order : EvalOrder) (code : TransactionCode) (types : Fin count → ArgType)
    (build : (∀ position, (types position).Val) → Call) : Prop where
  /-- The call made with some arguments has these arguments. -/
  arguments : ∀ values, (build values).arguments = ⟨count, types, values⟩
  /-- The proxy writes them in order. -/
  proxy : ∀ lib values, BpRjcoreService.invoke lib (build values) =
    BpRjcoreService.transact lib (build values).replyType code
      (List.ofFn fun position => (types position).item (values position))
  /-- The stub reads them inside the argument list of the call it makes. -/
  stub : ∀ lib data reply, BnRjcoreService.onTransact lib order code.value data reply =
    BnRjcoreService.checkInterface lib data reply fun data =>
      let call := build (lib.readArgs (order code count) types data).1
      .ask call fun result => .done (BnRjcoreService.writeReply lib reply call.replyType result)

namespace Marshals

/-- Different arguments make different calls. -/
theorem injective (marshals : Marshals order code types build) : Function.Injective build := by
  intro left right same
  have arguments := marshals.arguments left
  rw [same, marshals.arguments right] at arguments
  exact (eq_of_heq (Arguments.mk.inj arguments).2.2).symm

/-- A round trip invokes the method with the arguments the stub read; when these are the
client's, the client receives the result. -/
theorem roundTrip_eq (marshals : Marshals order code types build) (lib : Libbinder)
    (values : ∀ position, (types position).Val) :
    ∃ data, lib.Unread data (List.ofFn fun position => (types position).item (values position)) ∧
      ∀ serve, (roundTrip lib order serve (build values)).2 =
          [build (lib.readArgs (order code count) types data).1] ∧
        ((lib.readArgs (order code count) types data).1 = values →
          (roundTrip lib order serve (build values)).1 = serve (build values)) := by
  obtain ⟨data, unread, accepted⟩ := checkInterface_request
    (List.ofFn fun position => (types position).item (values position)) lib.empty
  refine ⟨data, unread, fun serve => ?_⟩
  unfold roundTrip
  rw [marshals.proxy]
  simp only [BpRjcoreService.transact, Program.runWith, transport, marshals.stub, accepted,
    recorded, List.nil_append, true_and]
  intro same
  rw [same]
  exact readReply_writeReply _ _

/-- Where proxy and stub agree, every library delivers the call exactly when the order
deals every argument an equal value. -/
theorem roundTrip_iff (marshals : Marshals order code types build)
    (values : ∀ position, (types position).Val) :
    (∀ lib serve, roundTrip lib order serve (build values) =
        (serve (build values), [build values])) ↔
      ∀ j, (types (order code count j)).item (values (order code count j)) =
        (types j).item (values j) := by
  constructor
  · intro faithful
    by_contra miss
    obtain ⟨lib, strays⟩ := Libbinder.exists_readArgs_ne miss
    obtain ⟨data, unread, outcome⟩ := marshals.roundTrip_eq lib values
    have received := (outcome fun call => BpRjcoreService.readReply lib _ lib.empty).1
    rw [faithful] at received
    exact strays data unread (marshals.injective (List.singleton_inj.mp received)).symm
  · intro meet lib serve
    obtain ⟨data, unread, outcome⟩ := marshals.roundTrip_eq lib values
    have same := Libbinder.readArgs_eq unread meet
    obtain ⟨log, result⟩ := outcome serve
    exact Prod.ext (result same) (by rw [log, same])

end Marshals

end Method

/-! ## Every method -/

/-- A method without arguments agrees with its proxy once both name its code. -/
theorem marshals_nullary {call : Call} (none : call.arguments = ⟨0, ![], finZeroElim⟩)
    (proxy : ∀ lib, BpRjcoreService.invoke lib call =
      BpRjcoreService.transact lib call.replyType call.code [])
    (stub : ∀ lib data reply, BnRjcoreService.onTransact lib order call.code.value data reply =
      BnRjcoreService.checkInterface lib data reply fun _ =>
        .ask call fun result =>
          .done (BnRjcoreService.writeReply lib reply call.replyType result)) :
    ∃ (count : Nat) (types : Fin count → ArgType)
      (build : (∀ position, (types position).Val) → Call)
      (values : ∀ position, (types position).Val),
      Marshals order call.code types build ∧ build values = call := by
  refine ⟨0, ![], fun _ => call, finZeroElim, ⟨fun values => ?_, fun lib _ => proxy lib, stub⟩, rfl⟩
  rw [none]
  exact Arguments.ext_values finZeroElim

/-- Every method of the interface agrees with its proxy. -/
theorem marshals (order : EvalOrder) (call : Call) :
    ∃ (count : Nat) (types : Fin count → ArgType)
      (build : (∀ position, (types position).Val) → Call)
      (values : ∀ position, (types position).Val),
      Marshals order call.code types build ∧ build values = call := by
  cases call with
  | getCpuInfo => exact marshals_nullary rfl (fun _ => rfl) fun _ _ _ => rfl
  | getAndroidVersion => exact marshals_nullary rfl (fun _ => rfl) fun _ _ _ => rfl
  | getSystemVersion => exact marshals_nullary rfl (fun _ => rfl) fun _ _ _ => rfl
  | getSerialNumber => exact marshals_nullary rfl (fun _ => rfl) fun _ _ _ => rfl
  | getProductType => exact marshals_nullary rfl (fun _ => rfl) fun _ _ _ => rfl
  | getHardwareVesion => exact marshals_nullary rfl (fun _ => rfl) fun _ _ _ => rfl
  | getProductId => exact marshals_nullary rfl (fun _ => rfl) fun _ _ _ => rfl
  | getProductName => exact marshals_nullary rfl (fun _ => rfl) fun _ _ _ => rfl
  | getBaseboardInfo => exact marshals_nullary rfl (fun _ => rfl) fun _ _ _ => rfl
  | getMemoryInfo => exact marshals_nullary rfl (fun _ => rfl) fun _ _ _ => rfl
  | getStorageInfo => exact marshals_nullary rfl (fun _ => rfl) fun _ _ _ => rfl
  | setPowerState powerState =>
    exact ⟨1, ![.int32], fun arg => .setPowerState (arg 0),
      fun | 0 => powerState,
      ⟨fun _ => Arguments.ext_values (fun | 0 => rfl),
        fun _ _ => rfl, fun _ _ _ => rfl⟩, rfl⟩
  | getPowerState => exact marshals_nullary rfl (fun _ => rfl) fun _ _ _ => rfl
  | collectLogFiles_block zipFilename =>
    exact ⟨1, ![.string16], fun arg => .collectLogFiles_block (arg 0),
      fun | 0 => zipFilename,
      ⟨fun _ => Arguments.ext_values (fun | 0 => rfl),
        fun _ _ => rfl, fun _ _ _ => rfl⟩, rfl⟩
  | chmodFile path mode =>
    exact ⟨2, ![.string16, .string16], fun arg => .chmodFile (arg 0) (arg 1),
      fun | 0 => path | 1 => mode,
      ⟨fun _ => Arguments.ext_values (fun | 0 => rfl | 1 => rfl),
        fun _ _ => rfl, fun _ _ _ => rfl⟩, rfl⟩
  | chmodDir path mode =>
    exact ⟨2, ![.string16, .string16], fun arg => .chmodDir (arg 0) (arg 1),
      fun | 0 => path | 1 => mode,
      ⟨fun _ => Arguments.ext_values (fun | 0 => rfl | 1 => rfl),
        fun _ _ => rfl, fun _ _ _ => rfl⟩, rfl⟩
  | rmFile path =>
    exact ⟨1, ![.string16], fun arg => .rmFile (arg 0),
      fun | 0 => path,
      ⟨fun _ => Arguments.ext_values (fun | 0 => rfl),
        fun _ _ => rfl, fun _ _ _ => rfl⟩, rfl⟩
  | reboot => exact marshals_nullary rfl (fun _ => rfl) fun _ _ _ => rfl
  | shutdown => exact marshals_nullary rfl (fun _ => rfl) fun _ _ _ => rfl
  | getLedStatus color =>
    exact ⟨1, ![.int32], fun arg => .getLedStatus (arg 0),
      fun | 0 => color,
      ⟨fun _ => Arguments.ext_values (fun | 0 => rfl),
        fun _ _ => rfl, fun _ _ _ => rfl⟩, rfl⟩
  | setLedStatus color state =>
    exact ⟨2, ![.int32, .int32], fun arg => .setLedStatus (arg 0) (arg 1),
      fun | 0 => color | 1 => state,
      ⟨fun _ => Arguments.ext_values (fun | 0 => rfl | 1 => rfl),
        fun _ _ => rfl, fun _ _ _ => rfl⟩, rfl⟩
  | setDeviceResolution xres yres refresh flag =>
    exact ⟨4, ![.int32, .int32, .int32, .int32],
      fun arg => .setDeviceResolution (arg 0) (arg 1) (arg 2) (arg 3),
      fun | 0 => xres | 1 => yres | 2 => refresh | 3 => flag,
      ⟨fun _ => Arguments.ext_values (fun | 0 => rfl | 1 => rfl | 2 => rfl | 3 => rfl),
        fun _ _ => rfl, fun _ _ _ => rfl⟩, rfl⟩
  | getCurrentResolution_block => exact marshals_nullary rfl (fun _ => rfl) fun _ _ _ => rfl
  | getSupportResolution => exact marshals_nullary rfl (fun _ => rfl) fun _ _ _ => rfl
  | getPropertyValue key =>
    exact ⟨1, ![.string16], fun arg => .getPropertyValue (arg 0),
      fun | 0 => key,
      ⟨fun _ => Arguments.ext_values (fun | 0 => rfl),
        fun _ _ => rfl, fun _ _ _ => rfl⟩, rfl⟩
  | getNetcardState => exact marshals_nullary rfl (fun _ => rfl) fun _ _ _ => rfl
  | getNetcardCurSpeed => exact marshals_nullary rfl (fun _ => rfl) fun _ _ _ => rfl
  | getNetcardMaxSpeed => exact marshals_nullary rfl (fun _ => rfl) fun _ _ _ => rfl
  | startAvahi => exact marshals_nullary rfl (fun _ => rfl) fun _ _ _ => rfl
  | stopAvahi => exact marshals_nullary rfl (fun _ => rfl) fun _ _ _ => rfl
  | checkIpConflict_block ip =>
    exact ⟨1, ![.string16], fun arg => .checkIpConflict_block (arg 0),
      fun | 0 => ip,
      ⟨fun _ => Arguments.ext_values (fun | 0 => rfl),
        fun _ _ => rfl, fun _ _ _ => rfl⟩, rfl⟩
  | ping_block ip count timeout deadline =>
    exact ⟨4, ![.string16, .int32, .int32, .int32],
      fun arg => .ping_block (arg 0) (arg 1) (arg 2) (arg 3),
      fun | 0 => ip | 1 => count | 2 => timeout | 3 => deadline,
      ⟨fun _ => Arguments.ext_values (fun | 0 => rfl | 1 => rfl | 2 => rfl | 3 => rfl),
        fun _ _ => rfl, fun _ _ _ => rfl⟩, rfl⟩
  | checkBandwidth_block serverIp user code =>
    exact ⟨3, ![.string16, .string16, .string16],
      fun arg => .checkBandwidth_block (arg 0) (arg 1) (arg 2),
      fun | 0 => serverIp | 1 => user | 2 => code,
      ⟨fun _ => Arguments.ext_values (fun | 0 => rfl | 1 => rfl | 2 => rfl),
        fun _ _ => rfl, fun _ _ _ => rfl⟩, rfl⟩
  | getOtaResult => exact marshals_nullary rfl (fun _ => rfl) fun _ _ _ => rfl
  | isProcessRunning processname =>
    exact ⟨1, ![.string16], fun arg => .isProcessRunning (arg 0),
      fun | 0 => processname,
      ⟨fun _ => Arguments.ext_values (fun | 0 => rfl),
        fun _ _ => rfl, fun _ _ _ => rfl⟩, rfl⟩
  | getProcessId processname =>
    exact ⟨1, ![.string16], fun arg => .getProcessId (arg 0),
      fun | 0 => processname,
      ⟨fun _ => Arguments.ext_values (fun | 0 => rfl),
        fun _ _ => rfl, fun _ _ _ => rfl⟩, rfl⟩
  | killByProcessName processname =>
    exact ⟨1, ![.string16], fun arg => .killByProcessName (arg 0),
      fun | 0 => processname,
      ⟨fun _ => Arguments.ext_values (fun | 0 => rfl),
        fun _ _ => rfl, fun _ _ _ => rfl⟩, rfl⟩

/-- A call made through the proxy invokes the same method of the service once, with the same
arguments, and returns its result, whatever the library and the service do, exactly when
the compiler's order deals every argument an equal value. -/
theorem roundTrip_faithful_iff (order : EvalOrder) (call : Call) :
    (∀ lib serve, roundTrip lib order serve call = (serve call, [call])) ↔ call.InOrder order := by
  obtain ⟨count, types, build, values, agrees, rfl⟩ := marshals order call
  rw [agrees.roundTrip_iff values, Call.InOrder, agrees.arguments]
  rfl

/-- Reading the second of two arguments first. -/
def rightToLeft : EvalOrder := fun _ _ => Fin.revPerm

/-- Where the arguments are evaluated from the right, a path and a mode change places. -/
theorem not_roundTrip_faithful :
    ¬∀ order call lib serve, roundTrip lib order serve call = (serve call, [call]) := by
  intro faithful
  have swapped := congrArg Prod.snd
    (faithful rightToLeft (.chmodFile (utf16 "/a") (utf16 "777")) (Libbinder.queue 0 [])
      fun call => BpRjcoreService.readReply (Libbinder.queue 0 []) call.replyType [])
  exact absurd swapped (by decide)

end Rjcore
