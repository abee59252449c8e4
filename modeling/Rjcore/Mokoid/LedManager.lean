import Rjcore.Interaction.Interleaving

/-!
# The LED manager

An application turns an LED on through its `LedManager`: `LedOn` starts the one thread that the
manager has, which makes the remote call and then leaves a message for the listener. A thread
starts only once, so the manager turns on LED 1, whichever LED it is asked for, and at most once
in its life; asked again, it ends an application that does not catch its exception. A runtime
exception of the service comes back through the call, and the manager does not catch it either.
-/

namespace Mokoid

open Interaction

/-- What may end the application. -/
inductive Throwable
  | illegalThreadState
  | nullPointer
  /-- A runtime exception of the service. -/
  | service
  /-- A runtime exception of the listener. -/
  | listener
  deriving DecidableEq

/-- How a remote call ends. -/
inductive RemoteCall
  | returned (result : Bool)
  /-- It throws `RemoteException`. -/
  | failed
  /-- The reply holds a runtime exception of the service, and `readException` throws it again. -/
  | rethrown
  deriving DecidableEq

/-- What the threads of an application do. -/
inductive AppOp
  /-- `mThread.start()`, which throws unless it is the first time. -/
  | startThread
  /-- The new thread begins to run. -/
  | enter
  /-- A remote call. -/
  | setOn (led : Int32)
  | setOff (led : Int32)
  /-- `mHandler.sendMessage(msg)`. -/
  | sendMessage
  /-- The main thread takes a message of the handler. -/
  | nextMessage
  /-- `mContext` is set, perhaps to `null`. -/
  | setListener (present : Bool)
  /-- `mContext` is used: it may be `null`. -/
  | getListener
  /-- The listener is called, which returns or throws. -/
  | onLedChanged
  /-- An exception that nobody catches ends all threads. -/
  | uncaught (thrown : Throwable)

/-- The answers. -/
abbrev AppOp.Answer : AppOp → Type
  | .startThread => Bool
  | .setOn _ => RemoteCall
  | .setOff _ => RemoteCall
  | .getListener => Bool
  | .onLedChanged => Bool
  | _ => Unit

/-- The operations of an application. -/
abbrev application : Signature := ⟨AppOp, AppOp.Answer⟩

/-- Perform an operation. -/
abbrev act (op : AppOp) : Program application op.Answer := .ask op .done

/-- What a method of Java returns or throws. -/
abbrev Outcome (α : Type) := Except Throwable α

namespace LedManager

/-- `LedManager.LedOn`: the LED that is asked for is not looked at. -/
def LedOn (_ : Int32) : Program application (Outcome Bool) := do
  if ← act .startThread then pure (.ok true) else pure (.error .illegalThreadState)

/-- `LedManager.LedOff`. `connected` says whether `mLedService` is there. -/
def LedOff (connected : Bool) (n : Int32) : Program application (Outcome Bool) := do
  if connected then
    match ← act (.setOff n) with
    | .returned result => pure (.ok result)
    | .failed => pure (.ok false)
    | .rethrown => pure (.error .service)
  else pure (.error .nullPointer)

/-- `LedManager.registerListener`. The listener may be `null`. -/
def registerListener (present : Bool) : Program application (Outcome Unit) := do
  act (.setListener present)
  pure (.ok ())

/-- `MyHandler.handleMessage`, for the next message. -/
def handleMessage : Program application (Outcome Unit) := do
  act .nextMessage
  if ← act .getListener then do
    if ← act .onLedChanged then pure (.ok ()) else pure (.error .listener)
  else pure (.error .nullPointer)

/-- `MyThread.run`. -/
def run (connected : Bool) : Program application Unit := do
  act .enter
  if connected then
    match ← act (.setOn 1) with
    | .returned _ => act .sendMessage
    | .failed => pure ()
    | .rethrown => act (.uncaught .service)
  else act (.uncaught .nullPointer)

end LedManager

/-- What the main thread may do next. -/
inductive Task
  | registerListener (present : Bool)
  | ledOn (n : Int32)
  | ledOff (n : Int32)
  | handleMessage
  deriving DecidableEq

/-- One turn of the main thread. -/
def Task.perform (connected : Bool) : Task → Program application (Outcome Unit)
  | .registerListener present => LedManager.registerListener present
  | .ledOn n => do
    let outcome ← LedManager.LedOn n
    pure (outcome.map fun _ => ())
  | .ledOff n => do
    let outcome ← LedManager.LedOff connected n
    pure (outcome.map fun _ => ())
  | .handleMessage => LedManager.handleMessage

/-- The main thread performs its tasks until one of them throws. -/
def mainThread (connected : Bool) : List Task → Program application Unit
  | [] => pure ()
  | task :: rest => do
    match ← task.perform connected with
    | .ok () => mainThread connected rest
    | .error thrown => act (.uncaught thrown)

/-- What `LedTest.onClick` does with the manager, as tasks: the first click makes it and registers a
listener. -/
def LedTest.onClick (first : Bool) : List Task :=
  if first then [.registerListener true, .ledOn 1] else [.ledOn 1]

/-- The threads of an application with a manager. -/
inductive Thread
  | main
  | worker
  deriving DecidableEq

/-- What the threads run. -/
def threads (connected : Bool) (tasks : List Task) : Thread → Program application Unit
  | .main => mainThread connected tasks
  | .worker => LedManager.run connected

/-- The state of an application. -/
structure App where
  alive : Bool
  /-- `mThread` was started. -/
  started : Bool
  /-- It runs, or has run. -/
  entered : Bool
  /-- `mContext` is not `null`. -/
  listener : Bool
  /-- The messages of the handler. -/
  messages : Nat
  deriving DecidableEq

/-- The application in the beginning. -/
def App.initial : App := ⟨true, false, false, false, 0⟩

/-- How the operations change an application that has not ended. -/
def App.moves : (app : App) → (op : application.Op) → application.Answer op → App → Prop
  | app, .startThread, accepted, after => accepted = !app.started ∧ after = { app with started := true }
  | app, .enter, _, after =>
    app.started = true ∧ app.entered = false ∧ after = { app with entered := true }
  | app, .sendMessage, _, after => after = { app with messages := app.messages + 1 }
  | app, .nextMessage, _, after => app.messages = after.messages + 1 ∧
    after = { app with messages := after.messages }
  | app, .setListener present, _, after => after = { app with listener := present }
  | app, .getListener, there, after => there = app.listener ∧ after = app
  | app, .uncaught _, _, after => after = { app with alive := false }
  | app, .setOn _, _, after => after = app
  | app, .setOff _, _, after => after = app
  | app, .onLedChanged, _, after => after = app

/-- Nothing happens in an application that has ended. -/
def appWorld : World application App := fun app op answer after =>
  app.alive = true ∧ app.moves op answer after

/-! ## The threads step by step -/

/-- How far a thread is. -/
inductive Phase
  | idle
  | taken
  | notifying
  | failing (thrown : Throwable)
  | fresh
  | entered
  | answered
  | over

/-- The steps of the two threads. -/
def monitor (connected : Bool) : Thread → Monitor application Phase
  | .main, .idle, .startThread, accepted =>
    some (if accepted then .idle else .failing .illegalThreadState)
  | .main, .idle, .setOff _, answer =>
    some (if answer = .rethrown then .failing .service else .idle)
  | .main, .idle, .setListener _, _ => some .idle
  | .main, .idle, .nextMessage, _ => some .taken
  | .main, .taken, .getListener, there =>
    some (if there then .notifying else .failing .nullPointer)
  | .main, .notifying, .onLedChanged, returns =>
    some (if returns then .idle else .failing .listener)
  | _, .failing thrown, .uncaught reported, _ => if reported = thrown then some .over else none
  | .main, .idle, .uncaught .nullPointer, _ => if connected then none else some .over
  | .worker, .fresh, .enter, _ => some .entered
  | .worker, .entered, .setOn led, answer =>
    if led = 1 then some (match answer with
      | .returned _ => .answered
      | .failed => .over
      | .rethrown => .failing .service)
    else none
  | .worker, .answered, .sendMessage, _ => some .over
  | .worker, .entered, .uncaught .nullPointer, _ => if connected then none else some .over
  | _, _, _, _ => none

/-- Where the threads begin. -/
def Phase.initial : Thread → Phase
  | .main => .idle
  | .worker => .fresh

/-- The main thread, whatever it has to do. -/
theorem mainThread_obeys (connected : Bool) (tasks : List Task) :
    (mainThread connected tasks).Obeys (monitor connected .main) .idle fun _ _ => True := by
  induction tasks with
  | nil => trivial
  | cons task rest ih =>
    cases task with
    | registerListener present => exact fun _ => ⟨.idle, rfl, ih⟩
    | ledOn n =>
      intro accepted
      cases accepted with
      | true => exact ⟨.idle, rfl, ih⟩
      | false => exact ⟨.failing .illegalThreadState, rfl, fun _ => ⟨.over, rfl, trivial⟩⟩
    | ledOff n =>
      cases connected with
      | true =>
        intro answer
        cases answer with
        | returned result => exact ⟨.idle, rfl, ih⟩
        | failed => exact ⟨.idle, rfl, ih⟩
        | rethrown => exact ⟨.failing .service, rfl, fun _ => ⟨.over, rfl, trivial⟩⟩
      | false => exact fun _ => ⟨.over, rfl, trivial⟩
    | handleMessage =>
      refine fun _ => ⟨.taken, rfl, fun there => ?_⟩
      cases there with
      | true =>
        refine ⟨.notifying, rfl, fun returns => ?_⟩
        cases returns with
        | true => exact ⟨.idle, rfl, ih⟩
        | false => exact ⟨.failing .listener, rfl, fun _ => ⟨.over, rfl, trivial⟩⟩
      | false => exact ⟨.failing .nullPointer, rfl, fun _ => ⟨.over, rfl, trivial⟩⟩

/-- The thread of the manager. -/
theorem run_obeys (connected : Bool) :
    (LedManager.run connected).Obeys (monitor connected .worker) .fresh fun _ _ => True := by
  refine fun _ => ⟨.entered, rfl, ?_⟩
  cases connected with
  | true =>
    intro answer
    cases answer with
    | returned result => exact ⟨.answered, rfl, fun _ => ⟨.over, rfl, trivial⟩⟩
    | failed => exact ⟨.over, rfl, trivial⟩
    | rethrown => exact ⟨.failing .service, rfl, fun _ => ⟨.over, rfl, trivial⟩⟩
  | false => exact fun _ => ⟨.over, rfl, trivial⟩

/-- What a step does to its thread and to the application. -/
inductive Turn (connected : Bool) :
    Thread → Event application → Phase × App → Phase × App → Prop
  | starts {app : App} (first : app.started = false) : Turn connected .main
      ⟨.startThread, true⟩ (.idle, app) (.idle, { app with started := true })
  | startsAgain {app : App} (again : app.started = true) : Turn connected .main
      ⟨.startThread, false⟩ (.idle, app) (.failing .illegalThreadState, app)
  | turnsOff {app : App} (led : Int32) (answer : RemoteCall) (quiet : answer ≠ .rethrown) :
      Turn connected .main ⟨.setOff led, answer⟩ (.idle, app) (.idle, app)
  | breaksOff {app : App} (led : Int32) : Turn connected .main
      ⟨.setOff led, RemoteCall.rethrown⟩ (.idle, app) (.failing .service, app)
  | listens {app : App} (present : Bool) : Turn connected .main
      ⟨.setListener present, ()⟩ (.idle, app) (.idle, { app with listener := present })
  | takes {app : App} (messages : Nat) (some_message : app.messages = messages + 1) :
      Turn connected .main
        ⟨.nextMessage, ()⟩ (.idle, app) (.taken, { app with messages := messages })
  | finds {app : App} : Turn connected .main
      ⟨.getListener, true⟩ (.taken, app) (.notifying, app)
  | misses {app : App} : Turn connected .main
      ⟨.getListener, false⟩ (.taken, app) (.failing .nullPointer, app)
  | notifies {app : App} : Turn connected .main
      ⟨.onLedChanged, true⟩ (.notifying, app) (.idle, app)
  | disturbs {app : App} : Turn connected .main
      ⟨.onLedChanged, false⟩ (.notifying, app) (.failing .listener, app)
  | fails {app : App} (thread : Thread) (thrown : Throwable) : Turn connected thread
      ⟨.uncaught thrown, ()⟩ (.failing thrown, app) (.over, { app with alive := false })
  | failsOff {app : App} (missing : connected = false) : Turn connected .main
      ⟨.uncaught .nullPointer, ()⟩ (.idle, app) (.over, { app with alive := false })
  | enters {app : App} (started : app.started = true) (first : app.entered = false) :
      Turn connected .worker ⟨.enter, ()⟩ (.fresh, app) (.entered, { app with entered := true })
  | turnsOn {app : App} (result : Bool) : Turn connected .worker
      ⟨.setOn 1, RemoteCall.returned result⟩ (.entered, app) (.answered, app)
  | loses {app : App} : Turn connected .worker
      ⟨.setOn 1, RemoteCall.failed⟩ (.entered, app) (.over, app)
  | breaksOn {app : App} : Turn connected .worker
      ⟨.setOn 1, RemoteCall.rethrown⟩ (.entered, app) (.failing .service, app)
  | sends {app : App} : Turn connected .worker
      ⟨.sendMessage, ()⟩ (.answered, app) (.over, { app with messages := app.messages + 1 })
  | failsOn {app : App} (missing : connected = false) : Turn connected .worker
      ⟨.uncaught .nullPointer, ()⟩ (.entered, app) (.over, { app with alive := false })

/-- Every step is one of these. -/
theorem turn_of_accepted {connected : Bool} {thread : Thread} {phase next : Phase} {app after : App}
    {op : application.Op} {answer : application.Answer op}
    (accepted : monitor connected thread phase op answer = some next)
    (moves : app.moves op answer after) :
    Turn connected thread ⟨op, answer⟩ (phase, app) (next, after) := by
  unfold monitor at accepted
  split at accepted
  · rename_i taken
    obtain ⟨first, rfl⟩ := moves
    cases begun : app.started with
    | false =>
      obtain rfl : taken = true := by simpa [begun] using first
      cases accepted
      exact .starts begun
    | true =>
      obtain rfl : taken = false := by simpa [begun] using first
      cases accepted
      have same : ({ app with started := true } : App) = app := by rw [← begun]
      rw [same]
      exact .startsAgain begun
  · rename_i answer
    obtain rfl : after = app := moves
    cases answer <;> cases accepted
    · exact .turnsOff _ _ RemoteCall.noConfusion
    · exact .turnsOff _ _ RemoteCall.noConfusion
    · exact .breaksOff _
  · cases accepted
    obtain rfl : after = _ := moves
    exact .listens _
  · cases accepted
    obtain ⟨some_message, left⟩ := moves
    rw [left]
    exact .takes _ some_message
  · rename_i there
    obtain ⟨_, rfl⟩ := moves
    cases there <;> cases accepted
    · exact .misses
    · exact .finds
  · rename_i returns
    obtain rfl : after = app := moves
    cases returns <;> cases accepted
    · exact .disturbs
    · exact .notifies
  · obtain rfl : after = _ := moves
    split at accepted
    · rename_i reported
      subst reported
      cases accepted
      exact .fails _ _
    · contradiction
  · obtain rfl : after = _ := moves
    cases connected <;> cases accepted
    exact .failsOff rfl
  · cases accepted
    obtain ⟨started, first, rfl⟩ := moves
    exact .enters started first
  · rename_i answered
    obtain rfl : after = app := moves
    split at accepted
    · rename_i one
      subst one
      cases answered <;> cases accepted
      · exact .turnsOn _
      · exact .loses
      · exact .breaksOn
    · contradiction
  · cases accepted
    obtain rfl : after = _ := moves
    exact .sends
  · obtain rfl : after = _ := moves
    cases connected <;> cases accepted
    exact .failsOn rfl
  · contradiction

/-! ## What happens how often -/

section Counts

/-- `LedOn` was called. -/
def starts (entry : Thread × Event application) : Bool :=
  match entry.2 with
  | ⟨.startThread, _⟩ => true
  | _ => false

/-- `LedOn` returned. -/
def accepts (entry : Thread × Event application) : Bool :=
  match entry.2 with
  | ⟨.startThread, accepted⟩ => accepted
  | _ => false

/-- The service was asked to turn an LED on. -/
def requestsOn (entry : Thread × Event application) : Bool :=
  match entry.2 with
  | ⟨.setOn _, _⟩ => true
  | _ => false

/-- The service answered. -/
def answersOn (entry : Thread × Event application) : Bool :=
  match entry.2 with
  | ⟨.setOn _, .returned _⟩ => true
  | _ => false

/-- The listener was notified. -/
def notifies (entry : Thread × Event application) : Bool :=
  match entry.2 with
  | ⟨.onLedChanged, _⟩ => true
  | _ => false

/-- Why an exception is thrown. -/
def Cause (connected : Bool) (log : List (Thread × Event application)) : Throwable → Prop
  | .illegalThreadState => 2 ≤ log.countP starts
  | .nullPointer => connected = false ∨ ∃ thread, (thread, ⟨.getListener, false⟩) ∈ log
  | .service => ∃ thread led, (thread, ⟨.setOn led, RemoteCall.rethrown⟩) ∈ log ∨
    (thread, ⟨.setOff led, RemoteCall.rethrown⟩) ∈ log
  | .listener => ∃ thread, (thread, ⟨.onLedChanged, false⟩) ∈ log

/-- What the manager does over the whole life of an application. -/
structure OnceOnly (connected : Bool) (log : List (Thread × Event application)) : Prop where
  /-- `LedOn` returns once, and throws from then on. -/
  accepted : log.countP accepts ≤ 1
  /-- The service is asked after that, and only for LED 1. -/
  requested : log.countP requestsOn ≤ log.countP accepts
  first_led : ∀ thread led answer, (thread, ⟨.setOn led, answer⟩) ∈ log → led = 1
  /-- The listener learns of it when the service has answered. -/
  notified : log.countP notifies ≤ log.countP answersOn
  /-- The application ends for a reason. -/
  ended : ∀ thread thrown answer, (thread, ⟨.uncaught thrown, answer⟩) ∈ log →
    Cause connected log thrown

/-- The requests that a thread may still make. -/
def Phase.requestsLeft : Phase → Nat
  | .entered => 1
  | _ => 0

/-- The notifications that a thread may still cause. -/
def Phase.notificationsLeft : Phase → Nat
  | .answered => 1
  | .taken => 1
  | .notifying => 1
  | _ => 0

/-- What the threads may still do together. -/
def total (left : Phase → Nat) (phase : Thread → Phase) : Nat :=
  left (phase .main) + left (phase .worker)

/-- What a thread may still do, and what the other one may. -/
theorem total_update (left : Phase → Nat) (phase : Thread → Phase) (thread : Thread) :
    ∃ other, total left phase = other + left (phase thread) ∧
      ∀ next, total left (Function.update phase thread next) = other + left next := by
  cases thread with
  | main => exact ⟨left (phase .worker), Nat.add_comm _ _, fun next => Nat.add_comm _ _⟩
  | worker => exact ⟨left (phase .main), rfl, fun next => rfl⟩

/-- How often things have happened, and may still happen. -/
structure Tallied (log : List (Thread × Event application)) (app : App)
    (requests notifications : Nat) : Prop where
  accepted : log.countP accepts = app.started.toNat
  entered : app.entered.toNat ≤ app.started.toNat
  requested : log.countP requestsOn + requests ≤ app.entered.toNat
  notified : log.countP notifies + app.messages + notifications ≤ log.countP answersOn

variable {connected : Bool} {log : List (Thread × Event application)} {app after : App}
  {thread : Thread} {current next : Phase} {event : Event application}

/-- Whether something happened, as a number. -/
theorem countP_later (happened : Thread × Event application → Bool) :
    (log ++ [(thread, event)]).countP happened =
      log.countP happened + (happened (thread, event)).toNat := by
  rw [List.countP_append, List.countP_singleton]
  cases happened (thread, event) <;> rfl

/-- `LedOn` returns when it starts the thread. -/
theorem started_of_turn (turn : Turn connected thread event (current, app) (next, after)) :
    after.started.toNat = app.started.toNat + (accepts (thread, event)).toNat := by
  cases turn with
  | starts first => rw [first]; rfl
  | _ => rfl

/-- Only a started thread enters. -/
theorem entered_of_turn (turn : Turn connected thread event (current, app) (next, after))
    (entered : app.entered.toNat ≤ app.started.toNat) :
    after.entered.toNat ≤ after.started.toNat := by
  cases turn with
  | starts first => exact Bool.toNat_le _
  | enters started first => exact Nat.le_of_eq (congrArg Bool.toNat started).symm
  | _ => exact entered

/-- A request uses up one that its thread may make, and entering allows one. -/
theorem requests_of_turn (turn : Turn connected thread event (current, app) (next, after)) :
    (requestsOn (thread, event)).toNat + next.requestsLeft + app.entered.toNat ≤
      after.entered.toNat + current.requestsLeft := by
  cases turn with
  | enters started first => simp [first, requestsOn, Phase.requestsLeft]
  | turnsOn | loses | breaksOn => exact Nat.le_of_eq (Nat.add_comm 1 _)
  | failsOn => exact Nat.le_succ_of_le (Nat.le_of_eq (Nat.zero_add _))
  | _ => exact Nat.le_of_eq (Nat.zero_add _)

/-- A notification uses up a message that a thread has taken, and every message an answer. -/
theorem notifications_of_turn (turn : Turn connected thread event (current, app) (next, after)) :
    (notifies (thread, event)).toNat + after.messages + next.notificationsLeft ≤
      app.messages + current.notificationsLeft + (answersOn (thread, event)).toNat := by
  cases turn with
  | takes messages some_message => simp [some_message, notifies, answersOn, Phase.notificationsLeft]
  | notifies | disturbs => exact Nat.le_of_eq (Nat.add_comm 1 _)
  | _ => simp [notifies, answersOn, Phase.notificationsLeft]

/-- A step keeps the tally. -/
theorem Tallied.step {requests notifications : Nat}
    (tallied : Tallied log app (requests + current.requestsLeft)
      (notifications + current.notificationsLeft))
    (turn : Turn connected thread event (current, app) (next, after)) :
    Tallied (log ++ [(thread, event)]) after (requests + next.requestsLeft)
      (notifications + next.notificationsLeft) where
  accepted := by rw [countP_later, tallied.accepted, started_of_turn turn]
  entered := entered_of_turn turn tallied.entered
  requested := by
    have before := tallied.requested
    have changed := requests_of_turn turn
    rw [countP_later]
    omega
  notified := by
    have before := tallied.notified
    have changed := notifications_of_turn turn
    rw [countP_later, countP_later]
    omega

/-- A cause stays one. -/
theorem Cause.later {thrown : Throwable} (cause : Cause connected log thrown)
    (entry : Thread × Event application) : Cause connected (log ++ [entry]) thrown := by
  cases thrown with
  | illegalThreadState =>
    change 2 ≤ List.countP _ _
    rw [countP_later]
    exact Nat.le_add_right_of_le cause
  | nullPointer => exact cause.imp id fun ⟨thread, member⟩ => ⟨thread, List.mem_append_left _ member⟩
  | service =>
    obtain ⟨thread, led, member⟩ := cause
    exact ⟨thread, led, member.imp (List.mem_append_left _) (List.mem_append_left _)⟩
  | listener =>
    obtain ⟨thread, member⟩ := cause
    exact ⟨thread, List.mem_append_left _ member⟩

/-- A thread fails for a cause. -/
theorem cause_of_failing {requests notifications : Nat} {thrown : Throwable}
    (tallied : Tallied log app requests notifications)
    (turn : Turn connected thread event (current, app) (.failing thrown, after)) :
    Cause connected (log ++ [(thread, event)]) thrown := by
  have last : (thread, event) ∈ log ++ [(thread, event)] :=
    List.mem_append_right _ (List.mem_singleton.mpr rfl)
  cases turn with
  | startsAgain again =>
    -- the first start has been counted
    have first : log.countP accepts = 1 := by rw [tallied.accepted, again]; rfl
    have counted : log.countP accepts ≤ log.countP starts := by
      refine List.countP_mono_left fun entry _ accepted => ?_
      obtain ⟨thread, op, answer⟩ := entry
      cases op <;> first | rfl | contradiction
    change 2 ≤ List.countP _ _
    rw [countP_later]
    exact Nat.succ_le_succ (first ▸ counted)
  | misses => exact .inr ⟨.main, last⟩
  | breaksOn => exact ⟨.worker, 1, .inl last⟩
  | breaksOff led => exact ⟨.main, led, .inr last⟩
  | disturbs => exact ⟨.main, last⟩

/-- An exception ends the application where a thread has failed, or the service is missing. -/
theorem failing_of_uncaught {thrown : Throwable} {answer : application.Answer (.uncaught thrown)}
    {onward : Phase × App}
    (turn : Turn connected thread ⟨.uncaught thrown, answer⟩ (current, app) onward) :
    current = .failing thrown ∨ thrown = .nullPointer ∧ connected = false := by
  cases turn with
  | fails => exact .inl rfl
  | failsOff missing => exact .inr ⟨rfl, missing⟩
  | failsOn missing => exact .inr ⟨rfl, missing⟩

/-- The service is asked for LED 1. -/
theorem one_of_setOn {led : Int32} {answer : application.Answer (.setOn led)}
    {before onward : Phase × App} (turn : Turn connected thread ⟨.setOn led, answer⟩ before onward) :
    led = 1 := by
  cases turn <;> rfl

/-- The state of the threads, with what they have done. -/
structure Kept (connected : Bool) (log : List (Thread × Event application)) (app : App)
    (phase : Thread → Phase) : Prop where
  tallied : Tallied log app (total Phase.requestsLeft phase) (total Phase.notificationsLeft phase)
  failing : ∀ thread thrown, phase thread = .failing thrown → Cause connected log thrown
  ended : ∀ thread thrown answer, (thread, ⟨.uncaught thrown, answer⟩) ∈ log →
    Cause connected log thrown
  first_led : ∀ thread led answer, (thread, ⟨.setOn led, answer⟩) ∈ log → led = 1

/-- Every step keeps it. -/
theorem Kept.step {phase : Thread → Phase} (kept : Kept connected log app phase)
    (turn : Turn connected thread event (phase thread, app) (next, after)) :
    Kept connected (log ++ [(thread, event)]) after (Function.update phase thread next) := by
  obtain ⟨requests, before, onward⟩ := total_update Phase.requestsLeft phase thread
  obtain ⟨notifications, before', onward'⟩ := total_update Phase.notificationsLeft phase thread
  have tallied := kept.tallied
  rw [before, before'] at tallied
  refine ⟨?_, fun other thrown fails => ?_, fun other thrown answer member => ?_,
    fun other led answer member => ?_⟩
  · rw [onward, onward']
    exact tallied.step turn
  · by_cases same : other = thread
    · subst same
      rw [Function.update_self] at fails
      subst fails
      exact cause_of_failing tallied turn
    · rw [Function.update_of_ne same] at fails
      exact (kept.failing other thrown fails).later _
  · rcases List.mem_append.mp member with earlier | now
    · exact (kept.ended other thrown answer earlier).later _
    · cases List.mem_singleton.mp now
      rcases failing_of_uncaught turn with fails | ⟨rfl, missing⟩
      · exact (kept.failing thread thrown fails).later _
      · exact .inl missing
  · rcases List.mem_append.mp member with earlier | now
    · exact kept.first_led other led answer earlier
    · cases List.mem_singleton.mp now
      exact one_of_setOn turn

/-- The threads of an application keep it along every interleaving. -/
theorem kept_of_shadow {config : App × (Thread → Phase)}
    (shadow : Shadow appWorld (monitor connected) (.initial, Phase.initial) log config) :
    Kept connected log config.1 config.2 := by
  induction shadow with
  | start =>
    refine ⟨⟨rfl, Nat.le_refl 0, Nat.le_refl 0, Nat.le_refl 0⟩, fun thread _ => ?_, nofun, nofun⟩
    cases thread <;> nofun
  | step earlier moves accepted ih => exact ih.step (turn_of_accepted accepted moves.2)

end Counts

/-- Whatever an application does with its manager, in every interleaving of its two threads and
whatever the service answers: `LedOn` returns at most once and throws from then on, the service is
asked at most once, after that and for LED 1, the listener is notified only when the service has
answered, and an exception of the manager ends the application only by a second `LedOn`, a missing
service, a missing listener, or a runtime exception of the service or of the listener. -/
theorem ledManager_once (connected : Bool) (tasks : List Task)
    {log : List (Thread × Event application)} {config : App × (Thread → Program application Unit)}
    (run : Reaches appWorld (.initial, threads connected tasks) log config) :
    OnceOnly connected log := by
  have obeys : ∀ thread, (threads connected tasks thread).Obeys (monitor connected thread)
      (Phase.initial thread) fun _ _ => True := by
    intro thread
    cases thread with
    | main => exact mainThread_obeys connected tasks
    | worker => exact run_obeys connected
  obtain ⟨phase, shadow, _⟩ := run.shadow obeys
  have kept := kept_of_shadow shadow
  obtain ⟨accepted, entered, requested, notified⟩ := kept.tallied
  constructor
  · rw [accepted]
    exact Bool.toNat_le _
  · omega
  · exact kept.first_led
  · omega
  · exact kept.ended

/-- An application with a service that answers. -/
def answeringService (app : App) : (op : application.Op) → application.Answer op × App
  | .startThread => (!app.started, { app with started := true })
  | .enter => ((), { app with entered := true })
  | .setOn _ => (.returned false, app)
  | .setOff _ => (.returned false, app)
  | .sendMessage => ((), { app with messages := app.messages + 1 })
  | .nextMessage => ((), { app with messages := app.messages - 1 })
  | .setListener present => ((), { app with listener := present })
  | .getListener => (app.listener, app)
  | .onLedChanged => (true, app)
  | .uncaught _ => ((), { app with alive := false })

/-- The operation is possible. -/
def App.able (app : App) (op : application.Op) : Bool :=
  app.alive && match op with
    | .enter => app.started && !app.entered
    | .nextMessage => 0 < app.messages
    | _ => true

/-- What the application does then is allowed. -/
theorem answeringService_allowed (app : App) (op : application.Op) (able : app.able op = true) :
    appWorld app op (answeringService app op).1 (answeringService app op).2 := by
  obtain ⟨alive, possible⟩ := (Bool.and_eq_true _ _).mp able
  refine ⟨alive, ?_⟩
  cases op with
  | startThread => exact ⟨rfl, rfl⟩
  | enter =>
    obtain ⟨started, first⟩ := (Bool.and_eq_true _ _).mp possible
    exact ⟨started, by simpa using first, rfl⟩
  | nextMessage =>
    have some_message : 0 < app.messages := of_decide_eq_true possible
    exact ⟨(Nat.succ_pred_eq_of_pos some_message).symm, rfl⟩
  | getListener => exact ⟨rfl, rfl⟩
  | _ => rfl

/-- The service turns the LED on after the first click of `LedTest`, and the second one ends it. -/
theorem ledManager_once_clicks : ∃ log config,
    Reaches appWorld (.initial, threads true (LedTest.onClick true ++ LedTest.onClick false))
      log config ∧
    log.countP requestsOn = 1 ∧ config.1.alive = false ∧ OnceOnly true log := by
  obtain ⟨log, config, played, asked, ended⟩ : ∃ log config,
      play answeringService [.main, .main, .worker, .worker, .worker, .main, .main] []
        (App.initial, threads true (LedTest.onClick true ++ LedTest.onClick false)) =
          some (log, config) ∧
        log.countP requestsOn = 1 ∧ config.1.alive = false := ⟨_, _, rfl, rfl, rfl⟩
  have run := play_reaches_able answeringService_allowed _ .start rfl played
  exact ⟨log, config, run, asked, ended, ledManager_once true _ run⟩

end Mokoid
