import Rjcore.Binder.RoundTrip

/-!
# Any request

What `BnRjcoreService::onTransact` does with a parcel that no proxy wrote. Every branch
checks the interface token and none checks the payload: an argument the parcel does not hold
any more is zero or empty, and the method is invoked with it.
-/

namespace Rjcore

open Interaction

namespace TransactionCode

/-- A selected label is the one the code names. -/
theorem value_of_ofValue {value : UInt32} {code : TransactionCode}
    (selected : ofValue value = some code) : code.value = value := by
  have found := List.find?_some selected
  simpa using found

/-- Codes have different numbers. -/
theorem value_injective : Function.Injective value := by
  intro left right same
  have selected := congrArg ofValue same
  simpa using selected

end TransactionCode

/-- Some call of the method a code names. -/
def TransactionCode.call : TransactionCode → Call
  | .getCpuInfo => .getCpuInfo
  | .getAndroidVersion => .getAndroidVersion
  | .getSystemVersion => .getSystemVersion
  | .getSerialNumber => .getSerialNumber
  | .getProductType => .getProductType
  | .getHardwareVersion => .getHardwareVesion
  | .getProductId => .getProductId
  | .getProductName => .getProductName
  | .getBaseboardInfo => .getBaseboardInfo
  | .getMemoryInfo => .getMemoryInfo
  | .getStorageInfo => .getStorageInfo
  | .setPowerState => .setPowerState 0
  | .getPowerState => .getPowerState
  | .collectLogFilesBlock => .collectLogFiles_block []
  | .chmodFile => .chmodFile [] []
  | .chmodDir => .chmodDir [] []
  | .rmFile => .rmFile []
  | .reboot => .reboot
  | .shutdown => .shutdown
  | .getLedStatus => .getLedStatus 0
  | .setLedStatus => .setLedStatus 0 0
  | .setDeviceResolution => .setDeviceResolution 0 0 0 0
  | .getCurrentResolutionBlock => .getCurrentResolution_block
  | .getSupportResolution => .getSupportResolution
  | .getPropertyValue => .getPropertyValue []
  | .getNetcardState => .getNetcardState
  | .getNetcardCurSpeed => .getNetcardCurSpeed
  | .getNetcardMaxSpeed => .getNetcardMaxSpeed
  | .startAvahi => .startAvahi
  | .stopAvahi => .stopAvahi
  | .checkIpConflictBlock => .checkIpConflict_block []
  | .pingBlock => .ping_block [] 0 0 0
  | .checkBandwidthBlock => .checkBandwidth_block [] [] []
  | .getOtaResult => .getOtaResult
  | .isProcessRunning => .isProcessRunning []
  | .getProcessId => .getProcessId []
  | .killProcessByName => .killByProcessName []

/-- It is a call of that method. -/
theorem TransactionCode.code_call (code : TransactionCode) : code.call.code = code := by
  cases code <;> rfl

variable {lib : Libbinder} {order : EvalOrder}

section Marshals

variable {code : TransactionCode} {count : Nat} {types : Fin count → ArgType}
  {build : (∀ position, (types position).Val) → Call}

/-- The code that the proxy sends is the code of the call. -/
theorem Marshals.code_build (marshals : Marshals order code types build)
    (values : ∀ position, (types position).Val) : (build values).code = code := by
  obtain ⟨_, _, other, arguments, agrees, same⟩ := Rjcore.marshals order (build values)
  have sent := marshals.proxy (Libbinder.queue 0 []) values
  rw [← same, agrees.proxy] at sent
  have codes := congrArg Prod.fst (Program.ask.inj sent).1
  exact TransactionCode.value_injective (same ▸ codes)

end Marshals

/-- A request begins with a parcel that the proxy method of its code can write for some
arguments. -/
def Complete (lib : Libbinder) (code : UInt32) (data : lib.Parcel) : Prop :=
  ∃ (call : Call) (rest : List Item), call.code.value = code ∧
    lib.Unread data (.token interfaceDescriptor :: (List.ofFn call.arguments.item ++ rest))

/-- Every request that the proxy sends is complete. -/
theorem complete_request (lib : Libbinder) (call : Call) :
    (BpRjcoreService.invoke lib call).Ensures fun trace _ => ∀ event ∈ trace,
      Complete lib event.op.1 (lib.deliver event.op.2) := by
  obtain ⟨count, types, build, values, agrees, rfl⟩ := marshals (fun _ _ => Equiv.refl _) call
  rw [agrees.proxy]
  intro reply event member
  rw [List.mem_singleton.mp member]
  refine ⟨build values, [], congrArg _ (agrees.code_build values), ?_⟩
  rw [agrees.arguments, List.append_nil]
  exact Libbinder.unread_writes (lib.unread_token interfaceDescriptor lib.unread_deliver_empty) _

/-- The stub acts on complete requests only. -/
def ActsOnComplete (lib : Libbinder) (code : UInt32) (data reply : lib.Parcel)
    (trace : List (Event service)) (result : Int32 × lib.Parcel) : Prop :=
  (trace ≠ [] → Complete lib code data) ∧
    (¬Complete lib code data → trace = [] ∧ result.1 ≠ noError ∧ result.2 = reply)

/-- A request that carries the token only is served. -/
theorem not_actsOnComplete :
    ¬∀ (lib : Libbinder) (order : EvalOrder) (code : UInt32) (data reply : lib.Parcel),
      (BnRjcoreService.onTransact lib order code data reply).Ensures
        (ActsOnComplete lib code data reply) := by
  intro acts
  have cut := acts (.queue 0 []) rightToLeft TransactionCode.setPowerState.value
    [.token interfaceDescriptor] []
  obtain ⟨call, rest, code, unread⟩ := (cut ()).1 (List.cons_ne_nil _ _)
  -- every call of the method has an argument, and the parcel holds none
  have label : call.code = .setPowerState := TransactionCode.value_injective code
  cases call with
  | setPowerState powerState =>
    have lengths := congrArg List.length unread
    simp [Call.arguments] at lengths
  | _ => contradiction

/-- One method is invoked once, the one the code names, with what the reads of its arguments
return, and its result is written. Where the parcel ends before some of the values that the
reads ask for, these are zero or empty. -/
def Serves (lib : Libbinder) (order : EvalOrder) (code : TransactionCode)
    (data reply : lib.Parcel) (trace : List (Event service)) (result : Int32 × lib.Parcel) : Prop :=
  ∃ (call : Call) (answer : call.Ret), call.code = code ∧ trace = [⟨call, answer⟩] ∧
    result = BnRjcoreService.writeReply lib reply call.replyType answer ∧
    call.arguments.values =
      (lib.readArgs (order code call.arguments.count) call.arguments.types data).1 ∧
    ∀ (values : ∀ position, (call.arguments.types position).Val) (kept : Nat),
      lib.Unread data (Libbinder.asked (order code call.arguments.count) call.arguments.types values
        ((List.finRange call.arguments.count).take kept)) →
      ∀ j, call.arguments.values (order code call.arguments.count j) =
        if j.val < kept then values (order code call.arguments.count j)
        else (call.arguments.types (order code call.arguments.count j)).initial

/-- A method is invoked only if the code names one and the parcel carries the interface token;
otherwise the request is refused without a result, or left to `BBinder`. -/
def ActsOnToken (lib : Libbinder) (order : EvalOrder) (code : UInt32) (data reply : lib.Parcel)
    (trace : List (Event service)) (result : Int32 × lib.Parcel) : Prop :=
  match TransactionCode.ofValue code with
  | none => trace = [] ∧ result = lib.onTransact code data reply
  | some code =>
    ((lib.checkInterface interfaceDescriptor data).1 = true →
      Serves lib order code (lib.checkInterface interfaceDescriptor data).2 reply trace result) ∧
    ((lib.checkInterface interfaceDescriptor data).1 = false →
      trace = [] ∧ result.1 = permissionDenied ∧ result.2 = reply)

/-- The stub acts on every request of a known code that carries the token, and on no other. -/
theorem actsOnToken (lib : Libbinder) (order : EvalOrder) (code : UInt32)
    (data reply : lib.Parcel) :
    (BnRjcoreService.onTransact lib order code data reply).Ensures
      (ActsOnToken lib order code data reply) := by
  cases selected : TransactionCode.ofValue code with
  | none =>
    have outside : BnRjcoreService.onTransact lib order code data reply =
        .done (lib.onTransact code data reply) := by
      rw [BnRjcoreService.onTransact, selected]
      rfl
    rw [outside]
    simp [ActsOnToken, selected]
  | some label =>
    obtain ⟨count, types, build, values, agrees, same⟩ := marshals order label.call
    rw [label.code_call] at agrees
    obtain rfl : label.value = code := TransactionCode.value_of_ofValue selected
    rw [agrees.stub lib data reply, BnRjcoreService.checkInterface]
    cases accepted : (lib.checkInterface interfaceDescriptor data).1 with
    | false =>
      refine (?_ : ActsOnToken lib order label.value data reply [] (permissionDenied, reply))
      simp only [ActsOnToken, selected, accepted]
      exact ⟨fun token => absurd token Bool.false_ne_true, fun _ => ⟨trivial, trivial, trivial⟩⟩
    | true =>
      intro answer
      simp only [ActsOnToken, selected, accepted]
      refine ⟨fun _ => ?_, fun refused => absurd refused (by decide)⟩
      let received := (lib.readArgs (order label count) types
        (lib.checkInterface interfaceDescriptor data).2).1
      refine ⟨build received, answer, agrees.code_build _, rfl, rfl, ?_, ?_⟩
      · rw [agrees.arguments]
      · rw [agrees.arguments]
        exact fun values kept unread => Libbinder.readArgs_cut kept unread

end Rjcore
