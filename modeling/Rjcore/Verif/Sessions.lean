import Rjcore.Binder.RoundTrip
import Rjcore.Interaction.Handler
import Rjcore.Interaction.Interleaving
import Rjcore.Service.Dispatch

/-!
# Sessions over the binder

A client is a program of calls of the interface. Over the binder each of its calls becomes a
transaction of the proxy, and each transaction runs the stub, which invokes a method of the
service in the process of the server. Where the compiler's order deals every argument of every
call an equal value, what the server does and what the client learns is what they would be if
the client called the service directly, for any number of clients at the same time.
-/

namespace Rjcore

open Interaction

section Session

variable (platform : Platform) (lib : Libbinder) (order : EvalOrder) (self : RjcoreService)

/-- A transaction in the server: the stub runs, the service runs the method it invokes, and the
reply is delivered back. -/
def serveTransaction (transaction : UInt32 × lib.Parcel) : Program os lib.Parcel := do
  let (_, reply) ← (BnRjcoreService.onTransact lib order transaction.1
    (lib.deliver transaction.2) lib.empty).through (self.invoke platform)
  pure (lib.deliver reply)

/-- A client in another process, which holds a proxy of the service. -/
def remoteClient {α : Type} (client : Program service α) : Program os α :=
  (client.through (BpRjcoreService.invoke lib)).through (serveTransaction platform lib order self)

/-- A client in the process of the service. -/
def localClient {α : Type} (client : Program service α) : Program os α :=
  client.through (self.invoke platform)

variable {order}

/-- A call over the binder runs the method of the service and returns its result. -/
theorem remote_call {call : Call} (inOrder : call.InOrder order) :
    (BpRjcoreService.invoke lib call).through (serveTransaction platform lib order self) =
      self.invoke platform call := by
  obtain ⟨count, types, build, values, agrees, rfl⟩ := marshals order call
  rw [Call.InOrder, agrees.arguments] at inOrder
  obtain ⟨data, unread, accepted⟩ := checkInterface_request
    (List.ofFn fun position => (types position).item (values position)) lib.empty
  have same : (lib.readArgs (order (build values).code count) types data).1 = values :=
    Libbinder.readArgs_eq unread inOrder
  have stub : (BnRjcoreService.onTransact lib order (build values).code.value
      (lib.deliver (BpRjcoreService.request lib
        (List.ofFn fun position => (types position).item (values position)))) lib.empty) =
      .ask (build values) fun result =>
        .done (BnRjcoreService.writeReply lib lib.empty (build values).replyType result) := by
    rw [agrees.stub, accepted]
    dsimp only
    rw [same]
  rw [agrees.proxy, BpRjcoreService.transact, Program.through_ask, serveTransaction, stub]
  simp only [Program.through_ask, Program.through_done, Program.bind_assoc, Program.done_bind,
    Program.pure_eq, readReply_writeReply, Program.bind_done]

/-- A client over the binder is the client in the process of the service. -/
theorem remoteClient_eq {α : Type} {client : Program service α}
    (inOrder : client.Asks fun call : Call => call.InOrder order) :
    remoteClient platform lib order self client = localClient platform self client := by
  rw [remoteClient, Program.through_through, localClient]
  exact Program.through_congr
    (inOrder.mono fun call delivered => remote_call platform lib self delivered)

/-- Any number of clients over the binder, in any interleaving and whatever the system does, reach
exactly what they reach in the process of the service. -/
theorem remoteClients_reach_iff {ι W α : Type} [DecidableEq ι] (world : World os W)
    (clients : ι → Program service α)
    (inOrder : ∀ client, (clients client).Asks fun call : Call => call.InOrder order) {start : W}
    {log : List (ι × Event os)} {config : W × (ι → Program os α)} :
    Reaches world (start, fun client => remoteClient platform lib order self (clients client))
        log config ↔
      Reaches world (start, fun client => localClient platform self (clients client))
        log config := by
  have same : (fun client => remoteClient platform lib order self (clients client)) =
      fun client => localClient platform self (clients client) :=
    funext fun client => remoteClient_eq platform lib self (inOrder client)
  rw [same]

end Session

/-- Reading the arguments of a call in their order. -/
def leftToRight : EvalOrder := fun _ _ => Equiv.refl _

/-- Two clients that switch a light on and then ask for it. -/
def lightClients (color : Bool) : Program service Int32 :=
  .ask (.setLedStatus (if color then 1 else 2) 1) fun _ =>
    .ask (.getLedStatus (if color then 1 else 2)) .done

/-- The service of a product with lights. -/
def lightService : RjcoreService := ⟨true, utf16 "", utf16 "Rain200S", utf16 "", utf16 ""⟩

/-- Nothing is known of the system. -/
def anySystem : World os Unit := fun _ _ _ _ => True

/-- Both clients in turn begin to switch their lights on over the binder. -/
theorem remoteClients_reach_lights : ∃ config,
    Reaches anySystem ((), fun client => remoteClient (.plain false) (Libbinder.queue 0 [])
        leftToRight lightService (lightClients client))
      [(true, ⟨.signal .default, .default⟩), (false, ⟨.signal .default, .default⟩)] config := by
  obtain ⟨config, played⟩ : ∃ config, play (fun _ (op : Op) => (op.uneventful, ()))
      [true, false] []
      ((), fun client => localClient (.plain false) lightService (lightClients client)) =
        some ([(true, ⟨.signal .default, .default⟩), (false, ⟨.signal .default, .default⟩)],
          config) := ⟨_, rfl⟩
  have run : Reaches anySystem _ _ config := play_reaches (fun _ _ => trivial) _ .start played
  refine ⟨config, (remoteClients_reach_iff (.plain false) (Libbinder.queue 0 []) lightService
    anySystem lightClients fun client => ?_).mpr run⟩
  exact ⟨fun _ => rfl, fun _ => ⟨fun _ => rfl, fun _ => trivial⟩⟩

end Rjcore
