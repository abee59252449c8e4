import Mathlib.Data.List.FinRange
import Mathlib.Logic.Equiv.Basic
import Rjcore.Binder.Interface

/-!
# Parcels

The binder library is not part of the repository. `Libbinder` lists the operations the
proxy and the stub use, with the documented behaviour they rely on: values are read in the
order they were written, an interface token is recognized, and a read past the end yields
zero or an empty string. A read of another type than the one written is left open.

The stub reads the arguments of a call inside its argument list, and the language leaves
the order in which those reads happen to the compiler. `readArgs` performs the reads in any
given order.
-/

namespace Rjcore

/-- A value written to a parcel. -/
inductive Item
  | token (descriptor : String16)
  | noException
  | int32 (value : Int32)
  | string16 (value : String16)
  deriving DecidableEq

/-- What `libbinder` provides. -/
structure Libbinder where
  /-- A parcel together with its read position. -/
  Parcel : Type
  /-- `Parcel()`. -/
  empty : Parcel
  /-- `Parcel::writeInterfaceToken`. -/
  writeInterfaceToken : String16 → Parcel → Parcel
  /-- `Parcel::writeNoException`. -/
  writeNoException : Parcel → Parcel
  /-- `Parcel::writeInt32`. -/
  writeInt32 : Int32 → Parcel → Parcel
  /-- `Parcel::writeString16`. -/
  writeString16 : String16 → Parcel → Parcel
  /-- A parcel as the other side of the transaction receives it. -/
  deliver : Parcel → Parcel
  /-- `Parcel::checkInterface`. -/
  checkInterface : String16 → Parcel → Bool × Parcel
  /-- `Parcel::readExceptionCode`. -/
  readExceptionCode : Parcel → Int32 × Parcel
  /-- `Parcel::readInt32`. -/
  readInt32 : Parcel → Int32 × Parcel
  /-- `Parcel::readString16`. -/
  readString16 : Parcel → String16 × Parcel
  /-- `BBinder::onTransact`: the status and reply for codes the stub does not know. -/
  onTransact : UInt32 → Parcel → Parcel → Int32 × Parcel
  /-- The values a parcel still has to be read. -/
  Unread : Parcel → List Item → Prop
  /-- A fresh parcel holds nothing. -/
  unread_empty : Unread empty []
  /-- A delivered fresh parcel holds nothing. -/
  unread_deliver_empty : Unread (deliver empty) []
  /-- A token is delivered after what was written before it. -/
  unread_token : ∀ {parcel items} descriptor, Unread (deliver parcel) items →
    Unread (deliver (writeInterfaceToken descriptor parcel)) (items ++ [.token descriptor])
  /-- So is the absence of an exception. -/
  unread_noException : ∀ {parcel items}, Unread (deliver parcel) items →
    Unread (deliver (writeNoException parcel)) (items ++ [.noException])
  /-- So is an integer. -/
  unread_int32 : ∀ {parcel items} value, Unread (deliver parcel) items →
    Unread (deliver (writeInt32 value parcel)) (items ++ [.int32 value])
  /-- So is a string. -/
  unread_string16 : ∀ {parcel items} value, Unread (deliver parcel) items →
    Unread (deliver (writeString16 value parcel)) (items ++ [.string16 value])
  /-- The token written is accepted and consumed. -/
  check_token : ∀ {parcel items descriptor}, Unread parcel (.token descriptor :: items) →
    (checkInterface descriptor parcel).1 = true ∧
      Unread (checkInterface descriptor parcel).2 items
  /-- The absence of an exception is consumed. -/
  read_noException : ∀ {parcel items}, Unread parcel (.noException :: items) →
    Unread (readExceptionCode parcel).2 items
  /-- An integer is read back. -/
  read_int32 : ∀ {parcel items value}, Unread parcel (.int32 value :: items) →
    (readInt32 parcel).1 = value ∧ Unread (readInt32 parcel).2 items
  /-- A string is read back. -/
  read_string16 : ∀ {parcel items value}, Unread parcel (.string16 value :: items) →
    (readString16 parcel).1 = value ∧ Unread (readString16 parcel).2 items
  /-- Past the end there is no exception to read. -/
  exhausted_exception : ∀ {parcel}, Unread parcel [] → Unread (readExceptionCode parcel).2 []
  /-- Past the end an integer reads as zero. -/
  exhausted_int32 : ∀ {parcel}, Unread parcel [] →
    (readInt32 parcel).1 = 0 ∧ Unread (readInt32 parcel).2 []
  /-- Past the end a string reads as empty. -/
  exhausted_string16 : ∀ {parcel}, Unread parcel [] →
    (readString16 parcel).1 = [] ∧ Unread (readString16 parcel).2 []

/-- The types of arguments. -/
inductive ArgType
  | int32
  | string16

/-- The values of an argument type. -/
abbrev ArgType.Val : ArgType → Type
  | .int32 => Int32
  | .string16 => String16

/-- An argument as it is written. -/
def ArgType.item : (type : ArgType) → type.Val → Item
  | .int32, value => .int32 value
  | .string16, value => .string16 value

/-- The value of an argument before it is read. -/
def ArgType.initial : (type : ArgType) → type.Val
  | .int32 => 0
  | .string16 => []

namespace Libbinder

variable (lib : Libbinder)

/-- Write one item. -/
def write (parcel : lib.Parcel) : Item → lib.Parcel
  | .token descriptor => lib.writeInterfaceToken descriptor parcel
  | .noException => lib.writeNoException parcel
  | .int32 value => lib.writeInt32 value parcel
  | .string16 value => lib.writeString16 value parcel

/-- Read one argument. -/
def read (parcel : lib.Parcel) : (type : ArgType) → type.Val × lib.Parcel
  | .int32 => lib.readInt32 parcel
  | .string16 => lib.readString16 parcel

/-- Evaluate the `j`-th expression in the chosen order, the one in position `order j`. -/
def readStep {count : Nat} (order : Equiv.Perm (Fin count)) (types : Fin count → ArgType)
    (state : (∀ position, (types position).Val) × lib.Parcel) (j : Fin count) :
    (∀ position, (types position).Val) × lib.Parcel :=
  let result := lib.read state.2 (types (order j))
  (Function.update state.1 (order j) result.1, result.2)

/-- Perform the reads of an argument list in the order the compiler chose. -/
def readArgs {count : Nat} (order : Equiv.Perm (Fin count)) (types : Fin count → ArgType)
    (data : lib.Parcel) : (∀ position, (types position).Val) × lib.Parcel :=
  (List.finRange count).foldl (lib.readStep order types)
    (fun position => (types position).initial, data)

variable {lib}

/-- Items are delivered in the order they are written. -/
theorem unread_write {parcel : lib.Parcel} {items : List Item}
    (before : lib.Unread (lib.deliver parcel) items) (item : Item) :
    lib.Unread (lib.deliver (lib.write parcel item)) (items ++ [item]) := by
  cases item with
  | token descriptor => exact lib.unread_token descriptor before
  | noException => exact lib.unread_noException before
  | int32 value => exact lib.unread_int32 value before
  | string16 value => exact lib.unread_string16 value before

/-- Any number of items is delivered in the order they are written. -/
theorem unread_writes {parcel : lib.Parcel} {items : List Item}
    (before : lib.Unread (lib.deliver parcel) items) (more : List Item) :
    lib.Unread (lib.deliver (more.foldl lib.write parcel)) (items ++ more) := by
  induction more generalizing parcel items with
  | nil => simpa using before
  | cons item more ih =>
    have next := ih (unread_write before item)
    simpa only [List.append_assoc, List.singleton_append, List.foldl_cons] using next

/-- An argument is read back. -/
theorem read_item {parcel : lib.Parcel} {items : List Item} {type : ArgType} {value : type.Val}
    (unread : lib.Unread parcel (type.item value :: items)) :
    (lib.read parcel type).1 = value ∧ lib.Unread (lib.read parcel type).2 items := by
  cases type with
  | int32 => exact lib.read_int32 unread
  | string16 => exact lib.read_string16 unread

/-- A read past the end yields zero or an empty string. -/
theorem read_exhausted {parcel : lib.Parcel} (type : ArgType) (ended : lib.Unread parcel []) :
    (lib.read parcel type).1 = type.initial ∧ lib.Unread (lib.read parcel type).2 [] := by
  cases type with
  | int32 => exact lib.exhausted_int32 ended
  | string16 => exact lib.exhausted_string16 ended

section Order

variable {count : Nat} {order : Equiv.Perm (Fin count)} {types : Fin count → ArgType}

/-- The values the reads ask for, as they stand in the parcel. -/
def asked (order : Equiv.Perm (Fin count)) (types : Fin count → ArgType)
    (values : ∀ position, (types position).Val) (indices : List (Fin count)) : List Item :=
  indices.map fun j => (types (order j)).item (values (order j))

/-- Reads that meet the values they ask for receive them and leave what stands behind. -/
theorem readArgs_front {values initial : ∀ position, (types position).Val} {data : lib.Parcel}
    {rest : List Item} (indices : List (Fin count))
    (unread : lib.Unread data (asked order types values indices ++ rest)) :
    lib.Unread (indices.foldl (lib.readStep order types) (initial, data)).2 rest ∧
      ∀ position, (indices.foldl (lib.readStep order types) (initial, data)).1 position =
        if position ∈ indices.map order then values position else initial position := by
  induction indices generalizing initial data with
  | nil => exact ⟨unread, fun position => rfl⟩
  | cons j later ih =>
    obtain ⟨value, onward⟩ := read_item unread
    have behind := @ih (Function.update initial (order j) (lib.read data (types (order j))).1)
      (lib.read data (types (order j))).2 onward
    refine ⟨behind.1, fun position => ?_⟩
    rw [List.foldl_cons, readStep, behind.2]
    by_cases again : position ∈ later.map order
    · simp [again]
    · by_cases here : position = order j
      · subst here
        simp [again, value]
      · simp [again, here]

/-- Reads past the end leave the arguments as they were before. -/
theorem readArgs_exhausted {initial : ∀ position, (types position).Val} {data : lib.Parcel}
    (indices : List (Fin count)) (ended : lib.Unread data [])
    (fresh : ∀ j ∈ indices, initial (order j) = (types (order j)).initial) :
    (indices.foldl (lib.readStep order types) (initial, data)).1 = initial := by
  induction indices generalizing data with
  | nil => rfl
  | cons j later ih =>
    obtain ⟨value, still⟩ := read_exhausted (types (order j)) ended
    have same : Function.update initial (order j) (lib.read data (types (order j))).1 = initial := by
      rw [value, ← fresh j List.mem_cons_self, Function.update_eq_self]
    rw [List.foldl_cons, readStep, same]
    exact ih still fun k member => fresh k (List.mem_cons_of_mem j member)

/-- Where the parcel ends after some of the values the reads ask for, the others are zero or
empty. -/
theorem readArgs_cut {values : ∀ position, (types position).Val} {data : lib.Parcel} (kept : Nat)
    (unread : lib.Unread data (asked order types values ((List.finRange count).take kept)))
    (j : Fin count) :
    (lib.readArgs order types data).1 (order j) =
      if j.val < kept then values (order j) else (types (order j)).initial := by
  rw [← List.append_nil (asked order types values _)] at unread
  let fresh : ∀ position, (types position).Val := fun position => (types position).initial
  let read := ((List.finRange count).take kept).foldl (lib.readStep order types) (fresh, data)
  obtain ⟨ended, received⟩ := @readArgs_front lib count order types values fresh data []
    ((List.finRange count).take kept) unread
  have front : ∀ k : Fin count, order k ∈ ((List.finRange count).take kept).map order ↔
      k.val < kept := by
    intro k
    rw [List.mem_map_of_injective order.injective,
      List.mem_take_iff_idxOf_lt (List.mem_finRange k), List.idxOf_finRange]
  have rest : (((List.finRange count).drop kept).foldl (lib.readStep order types) read).1 =
      read.1 := by
    apply readArgs_exhausted _ ended
    intro k member
    have apart : k ∉ (List.finRange count).take kept := fun early =>
      List.disjoint_take_drop (List.nodup_finRange count) le_rfl early member
    have late : order k ∉ ((List.finRange count).take kept).map order :=
      (List.mem_map_of_injective order.injective).not.mpr apart
    exact (received (order k)).trans (if_neg late)
  have whole : (lib.readArgs order types data).1 = read.1 := by
    rw [← rest, ← List.foldl_append, List.take_append_drop]
    rfl
  rw [whole, received]
  exact if_congr (front j) rfl rfl

/-- Reads that meet their own values fill exactly the positions they stand for. -/
theorem readArgs_foldl {values initial : ∀ position, (types position).Val} {data : lib.Parcel}
    (indices : List (Fin count))
    (unread : lib.Unread data (indices.map fun j => (types j).item (values j)))
    (meet : ∀ j ∈ indices, (types (order j)).item (values (order j)) = (types j).item (values j))
    (position : Fin count) :
    (indices.foldl (lib.readStep order types) (initial, data)).1 position =
      if position ∈ indices.map order then values position else initial position := by
  have met : asked order types values indices = indices.map fun j => (types j).item (values j) :=
    List.map_congr_left meet
  rw [← met, ← List.append_nil (asked order types values indices)] at unread
  exact (readArgs_front indices unread).2 position

/-- When the value in every place equals the one read there, every argument is received. -/
theorem readArgs_eq {values : ∀ position, (types position).Val} {data : lib.Parcel}
    (unread : lib.Unread data (List.ofFn fun j => (types j).item (values j)))
    (meet : ∀ j, (types (order j)).item (values (order j)) = (types j).item (values j)) :
    (lib.readArgs order types data).1 = values := by
  funext position
  rw [List.ofFn_eq_map] at unread
  unfold readArgs
  rw [readArgs_foldl (List.finRange count) unread (fun j _ => meet j)]
  have covered : position ∈ (List.finRange count).map order :=
    List.mem_map.mpr ⟨order.symm position, List.mem_finRange _, order.apply_symm_apply _⟩
  rw [if_pos covered]

end Order

/-! ## A queue of items

The simplest library with the documented behaviour: a parcel is the list of its unread
items. What a read of the wrong type yields is a parameter, so that it can be anything. -/

/-- The library whose parcels are queues, with the values of mismatched reads given. -/
def queue (strayInt : Int32) (strayString : String16) : Libbinder where
  Parcel := List Item
  empty := []
  writeInterfaceToken descriptor parcel := parcel ++ [.token descriptor]
  writeNoException parcel := parcel ++ [.noException]
  writeInt32 value parcel := parcel ++ [.int32 value]
  writeString16 value parcel := parcel ++ [.string16 value]
  deliver parcel := parcel
  checkInterface descriptor
    | .token found :: rest => (found = descriptor, rest)
    | parcel => (false, parcel)
  readExceptionCode
    | .noException :: rest => (0, rest)
    | parcel => (0, parcel)
  readInt32
    | .int32 value :: rest => (value, rest)
    | [] => (0, [])
    | parcel => (strayInt, parcel)
  readString16
    | .string16 value :: rest => (value, rest)
    | [] => ([], [])
    | parcel => (strayString, parcel)
  onTransact _ _ reply := (-74, reply)
  Unread parcel items := parcel = items
  unread_empty := rfl
  unread_deliver_empty := rfl
  unread_token _ same := congrArg (· ++ _) same
  unread_noException same := congrArg (· ++ _) same
  unread_int32 _ same := congrArg (· ++ _) same
  unread_string16 _ same := congrArg (· ++ _) same
  check_token same := by subst same; simp
  read_noException same := by subst same; rfl
  read_int32 same := by subst same; exact ⟨rfl, rfl⟩
  read_string16 same := by subst same; exact ⟨rfl, rfl⟩
  exhausted_exception same := by subst same; rfl
  exhausted_int32 same := by subst same; exact ⟨rfl, rfl⟩
  exhausted_string16 same := by subst same; exact ⟨rfl, rfl⟩

/-- A queue whose stray values miss a given argument. -/
def queueMissing : {type : ArgType} → type.Val → Libbinder
  | .int32, value => queue (value + 1) []
  | .string16, value => queue 0 (0 :: value)

/-- Reading another item than the argument's own from such a queue does not yield it. -/
theorem read_queueMissing {type : ArgType} {value : type.Val} {found : ArgType}
    {held : found.Val} (differs : type.item value ≠ found.item held) {rest : List Item}
    {parcel : (queueMissing value).Parcel}
    (unread : (queueMissing value).Unread parcel (found.item held :: rest)) :
    ((queueMissing value).read parcel type).1 ≠ value := by
  cases type with
  | int32 =>
    change parcel = _ at unread
    subst unread
    cases found with
    | int32 => exact fun same => differs (congrArg Item.int32 same).symm
    | string16 =>
      intro same
      change value + 1 = value at same
      simp at same
  | string16 =>
    change parcel = _ at unread
    subst unread
    cases found with
    | int32 =>
      intro same
      exact List.cons_ne_self 0 value same
    | string16 => exact fun same => differs (congrArg Item.string16 same).symm

section OutOfOrder

variable {count : Nat} {order : Equiv.Perm (Fin count)} {types : Fin count → ArgType}

/-- Some read meets another value than its own, after reads that all met theirs. -/
theorem exists_first_miss {values : ∀ position, (types position).Val}
    (miss : ¬∀ j, (types (order j)).item (values (order j)) = (types j).item (values j)) :
    ∃ front j rest, List.finRange count = front ++ j :: rest ∧
      (∀ k ∈ front, (types (order k)).item (values (order k)) = (types k).item (values k)) ∧
      (types (order j)).item (values (order j)) ≠ (types j).item (values j) := by
  have split : ∀ indices : List (Fin count),
      (¬∀ j ∈ indices, (types (order j)).item (values (order j)) = (types j).item (values j)) →
      ∃ front j rest, indices = front ++ j :: rest ∧
        (∀ k ∈ front, (types (order k)).item (values (order k)) = (types k).item (values k)) ∧
        (types (order j)).item (values (order j)) ≠ (types j).item (values j) := by
    intro indices
    induction indices with
    | nil => simp
    | cons j rest ih =>
      intro missed
      by_cases meets : (types (order j)).item (values (order j)) = (types j).item (values j)
      · obtain ⟨front, k, tail, whole, before, here⟩ := ih fun all => missed fun k member => by
          rcases List.mem_cons.mp member with rfl | later
          · exact meets
          · exact all k later
        exact ⟨j :: front, k, tail, by rw [whole]; rfl,
          fun i member => by
            rcases List.mem_cons.mp member with rfl | later
            · exact meets
            · exact before i later, here⟩
      · exact ⟨[], j, rest, rfl, by simp, meets⟩
  exact split _ fun all => miss fun j => all j (List.mem_finRange j)

/-- Reads that met their own values leave the values of the others unread. -/
theorem readArgs_unread {lib : Libbinder} {values : ∀ position, (types position).Val}
    (initial : ∀ position, (types position).Val) {data : lib.Parcel}
    (indices others : List (Fin count))
    (unread : lib.Unread data ((indices ++ others).map fun j => (types j).item (values j)))
    (meet : ∀ j ∈ indices, (types (order j)).item (values (order j)) = (types j).item (values j)) :
    lib.Unread (indices.foldl (lib.readStep order types) (initial, data)).2
      (others.map fun j => (types j).item (values j)) := by
  have met : asked order types values indices = indices.map fun j => (types j).item (values j) :=
    List.map_congr_left meet
  rw [List.map_append, ← met] at unread
  exact (readArgs_front indices unread).1

/-- Reads of other positions leave a received argument alone. -/
theorem readArgs_untouched {lib : Libbinder} {initial : ∀ position, (types position).Val}
    {data : lib.Parcel} (indices : List (Fin count)) {position : Fin count}
    (apart : ∀ j ∈ indices, order j ≠ position) :
    (indices.foldl (lib.readStep order types) (initial, data)).1 position = initial position := by
  induction indices generalizing initial data with
  | nil => rfl
  | cons j rest ih =>
    rw [List.foldl_cons, ih fun k member => apart k (List.mem_cons_of_mem j member)]
    exact Function.update_of_ne (apart j List.mem_cons_self).symm _ _

/-- When some place meets another value than its own, a library with the documented
behaviour hands the call other arguments. -/
theorem exists_readArgs_ne {values : ∀ position, (types position).Val}
    (miss : ¬∀ j, (types (order j)).item (values (order j)) = (types j).item (values j)) :
    ∃ lib : Libbinder, ∀ data : lib.Parcel,
      lib.Unread data (List.ofFn fun j => (types j).item (values j)) →
        (lib.readArgs order types data).1 ≠ values := by
  obtain ⟨front, j, rest, whole, before, here⟩ := exists_first_miss miss
  refine ⟨queueMissing (values (order j)), fun data unread same => ?_⟩
  have distinct : ∀ k ∈ rest, order k ≠ order j := by
    intro k member equal
    have nodup := List.nodup_finRange count
    rw [whole, List.nodup_append] at nodup
    exact (List.nodup_cons.mp nodup.2.1).1 (order.injective equal ▸ member)
  rw [List.ofFn_eq_map, whole] at unread
  have reached := readArgs_unread (fun position => (types position).initial) front (j :: rest)
    unread before
  refine read_queueMissing here reached (Eq.trans ?_ (congrFun same (order j)))
  unfold readArgs
  rw [whole, List.foldl_append, List.foldl_cons, readArgs_untouched rest distinct]
  simp only [readStep, Function.update_self]

end OutOfOrder

end Libbinder

end Rjcore
