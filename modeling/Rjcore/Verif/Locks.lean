import Rjcore.Interaction.Locks
import Rjcore.Service.Footprint
import Rjcore.Verif.Sessions

/-!
# The locks of the service

`collectLogFiles_block` runs under `sLockLog` and `checkBandwidth_block` under `sNetLock`; no
other method takes a lock, and neither method takes a lock under its own. So any number of
clients exclude each other under both locks, a client whose calls have returned holds none,
and no order of calls locks the service up. A client waits only behind a client of the same
method: a command that takes long, or forever, holds up no other method.
-/

namespace Rjcore

open Interaction CText

/-- What an operation does to the locks. -/
def lockEffect : os.Op → LockEffect Mutex
  | .lock mutex => .acquire mutex
  | .unlock mutex => .release mutex
  | _ => .unrelated

/-- Whatever is not a lock leaves the locks. -/
theorem lockEffect_of_facility {op : Op} (other : op.facility ≠ .locks) :
    lockEffect op = .unrelated := by
  cases op with
  | lock mutex => exact absurd rfl other
  | unlock mutex => exact absurd rfl other
  | _ => rfl

/-- A program whose facilities have no locks leaves them. -/
theorem Uses.unlocked {α : Type} {facilities : List Facility} {program : Program os α}
    (uses : Uses facilities program) (none : .locks ∉ facilities) :
    program.Asks fun op : Op => lockEffect op = .unrelated := by
  refine uses.mono fun op listed => lockEffect_of_facility fun locks => none ?_
  rwa [← locks]

/-- A section under a lock of the service is balanced. -/
theorem withLock_balanced {α : Type} {facilities : List Facility} (mutex : Mutex)
    {body : Program os α} (uses : Uses facilities body) (none : .locks ∉ facilities) :
    LockBalanced lockEffect (withLock mutex body) :=
  have acquires : lockEffect (.lock mutex) = .acquire mutex := rfl
  have releases : lockEffect (.unlock mutex) = .release mutex := rfl
  .guarded acquires releases (uses.unlocked none)

/-- Every method is balanced. -/
theorem invoke_balanced (platform : Platform) (self : RjcoreService) (call : Call) :
    LockBalanced lockEffect (self.invoke platform call) := by
  cases call with
  | collectLogFiles_block zipFilename =>
    have quiet : ∀ value : Bool, LockBalanced lockEffect (Program.done value : Program os Bool) :=
      fun _ => rfl
    change LockBalanced _ (if _ then _ else if _ then _ else _)
    split
    · exact quiet false
    · split
      · exact quiet false
      · exact withLock_balanced _ (RjcoreService.collectLogs_uses platform zipFilename) (by decide)
  | checkBandwidth_block serverIp user code =>
    exact withLock_balanced _ (RjcoreService.bandwidth_uses platform serverIp user code)
      (by decide)
  | _ => exact .of_unrelated ((RjcoreService.invoke_uses platform self _).unlocked (unlisted rfl))

/-- Any number of clients, in any interleaving and whatever the system answers, exclude each other
under both locks, hold none after their calls, and never all wait. -/
theorem clients_locksKept (platform : Platform) (self : RjcoreService) {ι α : Type} [DecidableEq ι]
    (clients : ι → Program service α) {log : List (ι × Event os)}
    {config : (Mutex → Bool) × (ι → Program os α)}
    (run : Reaches (locksWorld lockEffect)
      (fun _ => false, fun client => localClient platform self (clients client)) log config) :
    LocksKept lockEffect log config :=
  run.locksKept fun _ => .through fun call => invoke_balanced platform self call

/-- A client that collects the logs, and one that measures the bandwidth. -/
def lockingClients (collects : Bool) : Program service Unit :=
  if collects then .ask (.collectLogFiles_block (utf16 "a.zip")) fun _ => .done ()
  else .ask (.checkBandwidth_block (utf16 "10.0.0.1") [] []) fun _ => .done ()

/-- An uneventful day with locks. -/
def lockingDay (held : Mutex → Bool) (op : Op) : op.Answer × (Mutex → Bool) :=
  (op.uneventful, match lockEffect op with
    | .unrelated => held
    | .acquire mutex => Function.update held mutex true
    | .release mutex => Function.update held mutex false)

/-- The lock that an operation takes is free. -/
def lockFree (held : Mutex → Bool) (op : Op) : Bool :=
  match lockEffect op with
  | .acquire mutex => !held mutex
  | _ => true

/-- Such a day is one of locks. -/
theorem lockingDay_allowed (held : Mutex → Bool) (op : Op) (free : lockFree held op = true) :
    locksWorld lockEffect held op (lockingDay held op).1 (lockingDay held op).2 := by
  unfold locksWorld lockingDay
  unfold lockFree at free
  cases does : lockEffect op with
  | unrelated => rfl
  | acquire mutex => simpa [does] using free
  | release mutex => rfl

/-- Both clients are under their locks at the same time. -/
theorem clients_locksKept_both : ∃ config : (Mutex → Bool) × (Bool → Program os Unit),
    LocksKept lockEffect
      [(true, ⟨.lock .sLockLog, ()⟩), (false, ⟨.lock .sNetLock, ()⟩)] config ∧
      config.1 .sLockLog = true ∧ config.1 .sNetLock = true := by
  obtain ⟨config, played, both⟩ : ∃ config, play lockingDay [true, false] []
      (fun _ => false, fun client => localClient (.plain false) lightService (lockingClients client)) =
        some ([(true, ⟨.lock .sLockLog, ()⟩), (false, ⟨.lock .sNetLock, ()⟩)], config) ∧
      config.1 .sLockLog = true ∧ config.1 .sNetLock = true := ⟨_, rfl, rfl, rfl⟩
  exact ⟨config, clients_locksKept (.plain false) lightService lockingClients
    (play_reaches_able lockingDay_allowed _ .start rfl played), both⟩

/-! ## Waiting -/

/-- The lock under which the method of a call runs. -/
def Call.mutex : Call → Option Mutex
  | .collectLogFiles_block _ => some .sLockLog
  | .checkBandwidth_block _ _ _ => some .sNetLock
  | _ => none

/-- A section takes its lock and no other. -/
theorem withLock_acquires {α : Type} {facilities : List Facility} (mutex : Mutex)
    {body : Program os α} (uses : Uses facilities body) (none : .locks ∉ facilities) :
    (withLock mutex body).Asks fun op : Op => ∀ other, lockEffect op = .acquire other →
      mutex = other := by
  have inside : body.Asks fun op : Op => ∀ other, lockEffect op = .acquire other → mutex = other :=
    (uses.unlocked none).mono fun op unrelated other acquires => by simp [unrelated] at acquires
  refine ⟨fun other acquires => LockEffect.acquire.inj acquires, fun _ => ?_⟩
  exact inside.bind fun _ => ⟨fun other acquires => by simp [lockEffect] at acquires, fun _ => trivial⟩

/-- A method takes the lock of its call and no other. -/
theorem invoke_acquires (platform : Platform) (self : RjcoreService) (call : Call) :
    (self.invoke platform call).Asks fun op : Op => ∀ mutex, lockEffect op = .acquire mutex →
      call.mutex = some mutex := by
  cases call with
  | collectLogFiles_block zipFilename =>
    refine .ite trivial (.ite trivial ?_)
    exact (withLock_acquires _ (RjcoreService.collectLogs_uses platform zipFilename)
      (by decide)).mono fun op only mutex acquires => congrArg some (only mutex acquires)
  | checkBandwidth_block serverIp user code =>
    exact (withLock_acquires _ (RjcoreService.bandwidth_uses platform serverIp user code)
      (by decide)).mono fun op only mutex acquires => congrArg some (only mutex acquires)
  | _ =>
    exact ((RjcoreService.invoke_uses platform self _).unlocked (unlisted rfl)).mono
      fun op unrelated mutex acquires => by simp [unrelated] at acquires

section Waiting

variable (platform : Platform) (self : RjcoreService) {ι α : Type} [DecidableEq ι]

/-- A client is in a call: some calls have returned to it, its program asks for this one next, and
the method has come to the operation that the client is at. -/
def InCall (clients : ι → Program service α) (log : List (ι × Event os))
    (config : (Mutex → Bool) × (ι → Program os α)) (client : ι) (call : Call) : Prop :=
  ∃ past op next, config.2 client = .ask op next ∧
    Serving (self.invoke platform) (clients client) past call (ownTrace client log) op

/-- The operation that a client is at is possible with every answer. -/
def GoesOn (config : (Mutex → Bool) × (ι → Program os α)) (client : ι) : Prop :=
  ∃ op next, config.2 client = .ask op next ∧ ∀ answer, ∃ after,
    Step (locksWorld lockEffect) config (client, ⟨op, answer⟩) after

variable {platform self} {clients : ι → Program service α} {log : List (ι × Event os)}
  {config : (Mutex → Bool) × (ι → Program os α)}

/-- A client that has not returned is in a call. -/
theorem inCall_of_asks {world : World os (Mutex → Bool)} {held : Mutex → Bool} {client : ι}
    {op : Op} {next : op.Answer → Program os α}
    (run : Reaches world (held, fun client => localClient platform self (clients client)) log config)
    (waiting : config.2 client = .ask op next) :
    ∃ past call, Serving (self.invoke platform) (clients client) past call (ownTrace client log)
      op := by
  have reached := run.after client
  rw [waiting] at reached
  exact reached.serving

/-- In every interleaving of any number of clients and whatever the system answers, a client that
has not returned is in a call, and it goes on with every answer unless another client, in a call
that runs under the same lock, holds that lock; and that client goes on with every answer. -/
theorem clients_wait (platform : Platform) (self : RjcoreService)
    (clients : ι → Program service α)
    (run : Reaches (locksWorld lockEffect)
      (fun _ => false, fun client => localClient platform self (clients client)) log config)
    {client : ι} (unfinished : ∀ value, config.2 client ≠ .done value) :
    ∃ call, InCall platform self clients log config client call ∧
      (GoesOn config client ∨ ∃ mutex owner other, call.mutex = some mutex ∧
        owner ≠ client ∧ holding lockEffect log owner = some mutex ∧
        InCall platform self clients log config owner other ∧ other.mutex = some mutex ∧
        GoesOn config owner) := by
  have balanced : ∀ client, LockBalanced lockEffect (localClient platform self (clients client)) :=
    fun _ => .through fun call => invoke_balanced platform self call
  cases waiting : config.2 client with
  | done value => exact absurd waiting (unfinished value)
  | ask op next =>
    obtain ⟨past, call, serving⟩ := inCall_of_asks run waiting
    refine ⟨call, ⟨past, op, next, waiting, serving⟩, ?_⟩
    by_cases blocked : ∃ mutex, lockEffect op = .acquire mutex ∧ config.1 mutex = true
    · obtain ⟨mutex, acquires, taken⟩ := blocked
      obtain ⟨owner, own⟩ := ((run.locksKept balanced).held_iff mutex).mp taken
      obtain ⟨op', next', onward, free⟩ := run.holder_asks balanced own
      obtain ⟨past', other, serving'⟩ := inCall_of_asks run onward
      refine .inr ⟨mutex, owner, other, serving.asks (invoke_acquires platform self call) mutex
        acquires, ?_, own, ⟨past', op', next', onward, serving'⟩, ?_, op', next', onward, ?_⟩
      · -- the holder does not wait for a lock
        rintro rfl
        cases onward.symm.trans waiting
        exact free mutex acquires
      · refine serving'.guarded (invoke_balanced platform self) (invoke_acquires platform self) ?_
        exact Option.join_eq_some_iff.mp own
      · exact step_of_free onward fun other acquires => absurd acquires (free other)
    · refine .inl ⟨op, next, waiting, step_of_free waiting fun mutex acquires => ?_⟩
      by_contra taken
      exact blocked ⟨mutex, acquires, by simpa using taken⟩

end Waiting

/-- Two clients that collect the logs under different names. -/
def collectingClients (second : Bool) : Program service Bool :=
  .ask (.collectLogFiles_block (utf16 (if second then "b.zip" else "a.zip"))) .done

/-- The second client waits behind the first one. -/
theorem clients_wait_second : ∃ log config, Reaches (locksWorld lockEffect)
      (fun _ => false, fun client => localClient (.plain false) lightService
        (collectingClients client)) log config ∧
    ¬GoesOn config true ∧ ∃ call mutex owner other,
      InCall (.plain false) lightService collectingClients log config true call ∧
      call.mutex = some mutex ∧ owner ≠ true ∧ holding lockEffect log owner = some mutex ∧
      InCall (.plain false) lightService collectingClients log config owner other ∧
      other.mutex = some mutex ∧ GoesOn config owner := by
  obtain ⟨log, config, played, held, next, waiting⟩ : ∃ log config, play lockingDay [false] []
      (fun _ => false, fun client => localClient (.plain false) lightService
        (collectingClients client)) = some (log, config) ∧ config.1 .sLockLog = true ∧
      ∃ next, config.2 true = .ask (.lock .sLockLog) next := ⟨_, _, rfl, rfl, _, rfl⟩
  have run := play_reaches_able lockingDay_allowed _ .start rfl played
  have stuck : ¬GoesOn config true := by
    rintro ⟨op, onward, asks, goes⟩
    cases asks.symm.trans waiting
    obtain ⟨after, step⟩ := goes ()
    cases step with
    | act _ moves => exact Bool.false_ne_true (moves.1.symm.trans held)
  obtain ⟨call, inCall, goes | ⟨mutex, owner, other, behind⟩⟩ :=
    clients_wait (.plain false) lightService collectingClients run fun value finished => by
      cases finished.symm.trans waiting
  · exact absurd goes stuck
  · exact ⟨log, config, run, stuck, call, mutex, owner, other, inCall, behind⟩

end Rjcore
