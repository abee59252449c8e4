import Rjcore.Binder.Requests
import Rjcore.Interaction.Serving
import Rjcore.Service.Footprint
import Rjcore.Verif.Sessions

/-!
# Confinement of clients

A client in another process may send any parcel under any code. What it can make the service
do is decided by the methods that its codes name and by whether its parcels carry the interface
token: no content of a parcel, no answer of the system and no other client leads it beyond the
facilities of these methods.
-/

namespace Rjcore

open Interaction

/-- The facilities of a method do not depend on its arguments. -/
theorem Call.facilities_code (call : Call) : call.facilities = call.code.call.facilities := by
  cases call <;> rfl

variable (platform : Platform) (lib : Libbinder) (order : EvalOrder) (self : RjcoreService)

/-- What a transaction may lead to: the facilities of the method that its code names, if its parcel
carries the token. -/
def transactionFacilities (transaction : UInt32 × lib.Parcel) : List Facility :=
  if (lib.checkInterface interfaceDescriptor (lib.deliver transaction.2)).1 then
    match TransactionCode.ofValue transaction.1 with
    | some code => code.call.facilities
    | none => []
  else []

/-- The stub invokes only the method that the code names, and only for a parcel with the token. -/
theorem onTransact_asks (code : UInt32) (data reply : lib.Parcel) :
    (BnRjcoreService.onTransact lib order code data reply).Asks fun call : Call =>
      TransactionCode.ofValue code = some call.code ∧
        (lib.checkInterface interfaceDescriptor data).1 = true := by
  cases selected : TransactionCode.ofValue code with
  | none =>
    have outside : BnRjcoreService.onTransact lib order code data reply =
        .done (lib.onTransact code data reply) := by
      rw [BnRjcoreService.onTransact, selected]
      rfl
    rw [outside]
    trivial
  | some label =>
    obtain ⟨count, types, build, values, agrees, same⟩ := marshals order label.call
    rw [label.code_call] at agrees
    obtain rfl : label.value = code := TransactionCode.value_of_ofValue selected
    rw [agrees.stub lib data reply, BnRjcoreService.checkInterface]
    cases accepted : (lib.checkInterface interfaceDescriptor data).1 with
    | false => trivial
    | true => exact ⟨⟨congrArg some (agrees.code_build _).symm, rfl⟩, fun _ => trivial⟩

/-- A transaction leads to its facilities only. -/
theorem serveTransaction_uses (transaction : UInt32 × lib.Parcel) :
    Uses (transactionFacilities lib transaction)
      (serveTransaction platform lib order self transaction) := by
  refine Program.Asks.bind ?_ fun _ => trivial
  refine (onTransact_asks lib order transaction.1 _ _).through fun call served => ?_
  have facilities : transactionFacilities lib transaction = call.facilities := by
    rw [transactionFacilities, if_pos served.2, served.1]
    exact (Call.facilities_code call).symm
  rw [facilities]
  exact RjcoreService.invoke_uses platform self call

/-- In every interleaving of any number of clients that send any parcels, every operation that the
server performs for a client comes while it serves a transaction which that client has made, after
transactions whose replies the client has received, and belongs to the facilities of the method
that this transaction names with the token. -/
theorem clients_confined {ι W α : Type} [DecidableEq ι] (world : World os W)
    (clients : ι → Program (remote lib) α) {start : W} {before after : List (ι × Event os)}
    {client : ι} {event : Event os} {config : W × (ι → Program os α)}
    (run : Reaches world
      (start, fun client => (clients client).through (serveTransaction platform lib order self))
      (before ++ (client, event) :: after) config) :
    ∃ past transaction, Serving (serveTransaction platform lib order self) (clients client) past
        transaction (ownTrace client before) event.op ∧
      Op.facility event.op ∈ transactionFacilities lib transaction := by
  rw [← List.singleton_append, ← List.append_assoc] at run
  obtain ⟨_, run, _⟩ := run.split
  obtain ⟨⟨state, pool⟩, reached, step⟩ := run.last_step
  cases step with
  | act waiting moves =>
    have made := reached.after client
    simp only [waiting] at made
    obtain ⟨past, transaction, serving⟩ := made.serving
    exact ⟨past, transaction, serving,
      serving.asks (serveTransaction_uses platform lib order self transaction)⟩

/-- A client that asks for a property, and one that sends the code of a reboot without the token. -/
def askerAndForger (asks : Bool) : Program (remote (Libbinder.queue 0 [])) Unit :=
  if asks then .ask (TransactionCode.getPropertyValue.value,
    [.token interfaceDescriptor, .string16 (utf16 "key")]) fun _ => .done ()
  else .ask (TransactionCode.reboot.value, []) fun _ => .done ()

/-- Only the asker is served, and its property is read for its transaction. -/
theorem clients_confined_forger : ∃ event config, Reaches anySystem ((), fun client =>
      (askerAndForger client).through (serveTransaction (.plain false) (Libbinder.queue 0 [])
        leftToRight lightService)) [(true, event)] config ∧
    config.2 false = .done () ∧ ∃ past transaction,
      Serving (serveTransaction (.plain false) (Libbinder.queue 0 []) leftToRight lightService)
        (askerAndForger true) past transaction [] event.op ∧
      Op.facility event.op ∈ transactionFacilities (Libbinder.queue 0 []) transaction := by
  obtain ⟨event, config, played, refused⟩ : ∃ event config,
      play (fun _ (op : Op) => (op.uneventful, ())) [true] [] ((), fun client =>
        (askerAndForger client).through (serveTransaction (.plain false) (Libbinder.queue 0 [])
          leftToRight lightService)) = some ([(true, event)], config) ∧
        config.2 false = .done () := ⟨_, _, rfl, rfl⟩
  have run : Reaches anySystem _ ([] ++ (true, event) :: []) config :=
    play_reaches (fun _ _ => trivial) _ .start played
  exact ⟨event, config, run, refused, clients_confined (.plain false) (Libbinder.queue 0 [])
    leftToRight lightService anySystem askerAndForger run⟩

end Rjcore
