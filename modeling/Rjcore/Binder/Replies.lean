import Rjcore.Binder.RoundTrip

/-!
# Any reply

What `BpRjcoreService` makes of a transaction that did not end with the reply of the method.
The proxy drops the status and the exception code and decodes whatever is there, so after a
failed transaction its result is the value a read past the end yields. For strings and
booleans this is what the methods return when they fail; for the power state and the LED it
is a measured value, while the methods return -1.
-/

namespace Rjcore

open Interaction

variable (lib : Libbinder)

/-- How a transaction ended. -/
structure Outcome where
  /-- The status of the transaction. -/
  status : Int32
  /-- The reply as the transaction leaves it. -/
  reply : lib.Parcel
  /-- A failed transaction leaves nothing to read. -/
  nothing : status ≠ noError → lib.Unread reply []

variable {lib}

/-- The result of a proxy method when its transaction ends so. -/
def returned (call : Call) (outcome : Outcome lib) : call.Ret :=
  ((BpRjcoreService.invoke lib call).runWith (fun (_ : Unit) _ => (outcome.reply, ())) ()).1

/-- The method ran to completion and its result was written. -/
def Completed (call : Call) (outcome : Outcome lib) : Prop :=
  outcome.status = noError ∧ ∃ result : call.Ret,
    outcome.reply = lib.deliver (BnRjcoreService.writeReply lib lib.empty call.replyType result).2

/-- What the methods of the service return when they fail. -/
def failureValue : (type : ReplyType) → type.Val
  | .void => ()
  | .int32 => -1
  | .bool => false
  | .string16 => utf16 ""

/-- Without a result of the method, the proxy returns what the method returns when it fails. -/
def FailureShows (call : Call) (outcome : Outcome lib) : Prop :=
  ¬Completed call outcome → returned call outcome = failureValue call.replyType

/-- The failure value stands at the read position of a parcel. -/
def HoldsFailure : ReplyType → lib.Parcel → Prop
  | .void, _ => True
  | .int32, parcel => (lib.readInt32 parcel).1 = -1
  | .bool, parcel => (lib.readInt32 parcel).1 = 0
  | .string16, parcel => (lib.readString16 parcel).1 = []

/-- A proxy method reads its result from the reply. -/
theorem returned_eq (call : Call) (outcome : Outcome lib) :
    returned call outcome =
      BpRjcoreService.readReply lib call.replyType (lib.readExceptionCode outcome.reply).2 := by
  obtain ⟨count, types, build, values, agrees, rfl⟩ := marshals (fun _ _ => Equiv.refl _) call
  rw [returned, agrees.proxy]
  rfl

/-- The proxy returns the failure value exactly when it stands behind the exception code. -/
theorem readReply_eq_failureValue_iff (type : ReplyType) (parcel : lib.Parcel) :
    BpRjcoreService.readReply lib type parcel = failureValue type ↔ HoldsFailure type parcel := by
  cases type with
  | void => exact iff_of_true rfl trivial
  | int32 => exact Iff.rfl
  | bool => exact bne_eq_false_iff_eq
  | string16 => exact Iff.rfl

/-- Past the end of a reply stands the failure value of every type but one. -/
theorem holdsFailure_exhausted (type : ReplyType) {parcel : lib.Parcel}
    (ended : lib.Unread parcel []) : HoldsFailure type parcel ↔ type ≠ .int32 := by
  cases type with
  | void => exact iff_of_true trivial (by simp)
  | int32 =>
    have zero := (lib.exhausted_int32 ended).1
    refine iff_of_false ?_ (by simp)
    rw [HoldsFailure, zero]
    decide
  | bool => exact iff_of_true (lib.exhausted_int32 ended).1 (by simp)
  | string16 => exact iff_of_true (lib.exhausted_string16 ended).1 (by simp)

/-- A failure shows if and only if the method did complete, or the transaction failed and the
result is no integer, or the reply that came without the method holds the failure value. -/
theorem failureShows_iff (lib : Libbinder) (call : Call) (outcome : Outcome lib) :
    FailureShows call outcome ↔ Completed call outcome ∨
      (outcome.status ≠ noError ∧ call.replyType ≠ .int32) ∨
      (outcome.status = noError ∧
        HoldsFailure call.replyType (lib.readExceptionCode outcome.reply).2) := by
  have shown : returned call outcome = failureValue call.replyType ↔
      HoldsFailure call.replyType (lib.readExceptionCode outcome.reply).2 := by
    rw [returned_eq]
    exact readReply_eq_failureValue_iff _ _
  have parts : (outcome.status ≠ noError ∧ call.replyType ≠ .int32) ∨
      (outcome.status = noError ∧
        HoldsFailure call.replyType (lib.readExceptionCode outcome.reply).2) ↔
      HoldsFailure call.replyType (lib.readExceptionCode outcome.reply).2 := by
    by_cases success : outcome.status = noError
    · simp [success]
    · have ended := lib.exhausted_exception (outcome.nothing success)
      rw [holdsFailure_exhausted _ ended]
      simp [success]
  rw [FailureShows, shown, parts]
  exact or_iff_not_imp_left.symm

/-- `DEAD_OBJECT`. -/
def deadObject : Int32 := -32

/-- The service is gone, and the power state reads as disabled. -/
theorem not_failureShows :
    ¬∀ (lib : Libbinder) (call : Call) (outcome : Outcome lib), FailureShows call outcome := by
  intro shows
  let gone : Outcome (.queue 0 []) := ⟨deadObject, [], fun _ => rfl⟩
  have failure := shows (.queue 0 []) .getPowerState gone fun completed =>
    absurd completed.1 (by decide)
  exact absurd failure (by decide)

end Rjcore
