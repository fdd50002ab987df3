import HostBoundary.Callback
import Mathlib

namespace HostBoundary

lemma TableKind.ofCode?_eq_some_iff (kind : TableKind) (code : UInt64) :
    ofCode? code = some kind ↔ kind.code = code := by
  constructor
  · intro h
    simpa using List.find?_some h
  · rintro rfl
    cases kind <;> decide

namespace CallbackData

variable (kind : TableKind) (index : UInt32) (data : CallbackData)

lemma toNat_encode : (encode kind index).word.toNat = kind.code.toNat * 2 ^ 32 + index.toNat := by
  have hi : index.toNat < 2 ^ 32 := index.toNat_lt
  have hcode : kind.code.toNat < 2 ^ 32 := by cases kind <;> decide
  simp only [encode, UInt64.toNat_or, UInt64.toNat_shiftLeft, UInt32.toNat_toUInt64]
  rw [show (32 : UInt64).toNat % 64 = 32 from rfl, Nat.shiftLeft_eq, Nat.mod_eq_of_lt (by omega)]
  rw [← Nat.shiftLeft_eq, Nat.shiftLeft_add_eq_or_of_lt hi]

-- Reading accepts what writing produces and nothing else. The codes are below 4, so that the
-- bits from 34 up are clear in whatever is accepted.
lemma decode?_eq_some_iff : data.decode? = some (kind, index) ↔ encode kind index = data := by
  have hword := data.word.toNat_lt
  have hi := index.toNat_lt
  have hcode : kind.code.toNat < 4 := by cases kind <;> decide
  have htop : data.word >>> 40 = 0 ↔ data.word.toNat / 2 ^ 40 = 0 := by
    rw [← UInt64.toNat_inj, UInt64.toNat_shiftRight, Nat.shiftRight_eq_div_pow]
    rfl
  have hkind : kind.code = data.word >>> 32 ↔ kind.code.toNat = data.word.toNat / 2 ^ 32 := by
    rw [← UInt64.toNat_inj, UInt64.toNat_shiftRight, Nat.shiftRight_eq_div_pow]
    rfl
  have hindex : data.word.toUInt32 = index ↔ data.word.toNat % 2 ^ 32 = index.toNat := by
    rw [← UInt32.toNat_inj, UInt64.toNat_toUInt32]
  have hencode : encode kind index = data ↔
      kind.code.toNat * 2 ^ 32 + index.toNat = data.word.toNat := by
    rw [← toNat_encode, UInt64.toNat_inj]
    exact ⟨congrArg word, fun h => congrArg mk h⟩
  rw [hencode, decode?]
  split
  next h =>
    have := mt htop.mpr (by simpa using h)
    simp only [reduceCtorEq, false_iff]
    omega
  next =>
    simp only [Option.map_eq_some_iff, Prod.mk.injEq, TableKind.ofCode?_eq_some_iff,
      and_left_comm, exists_eq_left, hkind, hindex]
    omega

lemma decode?_encode : (encode kind index).decode? = some (kind, index) :=
  (decode?_eq_some_iff kind index _).mpr rfl

end CallbackData

def Callback.kind : Callback → TableKind
  | .domain _ => .domain
  | .function _ => .function
  | .member _ => .member

namespace CallbackTables

variable (t : CallbackTables)

def register : Callback → CallbackData × CallbackTables
  | .domain entry => t.registerDomain entry
  | .function entry => t.registerFunction entry
  | .member entry => t.registerMember entry

def count : Callback → Nat
  | .domain _ => t.domains.size
  | .function _ => t.functions.size
  | .member _ => t.members.size

-- The registrations of one kind, in the order in which they came.
def entries : TableKind → List Callback
  | .domain => t.domains.toList.map .domain
  | .function => t.functions.toList.map .function
  | .member => t.members.toList.map .member

lemma length_entries (callback : Callback) :
    (t.entries callback.kind).length = t.count callback := by
  cases callback <;> simp [Callback.kind, entries, count]

lemma lookup?_eq (data : CallbackData) :
    t.lookup? data = data.decode?.bind fun (kind, index) => (t.entries kind)[index.toNat]? := by
  unfold lookup?
  split <;> rename_i hdecode <;> simp [hdecode, entries]

lemma lookup?_encode (kind : TableKind) (index : UInt32) :
    t.lookup? (.encode kind index) = (t.entries kind)[index.toNat]? := by
  rw [lookup?_eq, CallbackData.decode?_encode, Option.bind_some]

-- Nothing but what the encoder writes is looked for in a table.
lemma exists_encode_of_lookup? {data : CallbackData} {callback : Callback}
    (h : t.lookup? data = some callback) : ∃ kind index, data = .encode kind index := by
  rw [lookup?_eq] at h
  obtain ⟨⟨kind, index⟩, hdecode, -⟩ := Option.bind_eq_some_iff.mp h
  exact ⟨kind, index, ((CallbackData.decode?_eq_some_iff kind index data).mp hdecode).symm⟩

lemma entries_register (callback : Callback) (kind : TableKind) :
    (t.register callback).2.entries kind =
      t.entries kind ++ if kind = callback.kind then [callback] else [] := by
  cases callback <;> cases kind <;>
    simp [register, registerDomain, registerFunction, registerMember, entries, Callback.kind]

lemma data_register (callback : Callback) :
    (t.register callback).1 = .encode callback.kind (.ofNat (t.count callback)) := by
  cases callback <;> rfl

-- Whatever was registered is still found where it was.
def Extends (t t' : CallbackTables) : Prop :=
  ∀ data callback, t.lookup? data = some callback → t'.lookup? data = some callback

lemma Extends.refl : t.Extends t := fun _ _ h => h

lemma extends_register (callback : Callback) : t.Extends (t.register callback).2 := by
  intro data found h
  obtain ⟨kind, index, rfl⟩ := t.exists_encode_of_lookup? h
  rw [lookup?_encode] at h ⊢
  rw [entries_register, List.getElem?_append_left (List.getElem?_eq_some_iff.mp h).1, h]

section Room

-- Positions are 32-bit words; a table of 2 ^ 32 entries would start over.
variable {t : CallbackTables} {callback : Callback} (hroom : t.count callback < 2 ^ 32)

include hroom

lemma lookup?_fresh : t.lookup? (t.register callback).1 = none := by
  rw [data_register, lookup?_encode, UInt32.toNat_ofNat_of_lt' hroom, ← length_entries]
  exact List.getElem?_eq_none (Nat.le_refl _)

-- One registration adds one entry, under the data that it gives out.
lemma lookup?_register_iff (data : CallbackData) (found : Callback) :
    (t.register callback).2.lookup? data = some found ↔
      t.lookup? data = some found ∨ data = (t.register callback).1 ∧ found = callback := by
  have hindex : (UInt32.ofNat (t.count callback)).toNat = (t.entries callback.kind).length := by
    rw [UInt32.toNat_ofNat_of_lt' hroom, length_entries]
  constructor
  · intro h
    obtain ⟨kind, index, rfl⟩ := exists_encode_of_lookup? _ h
    rw [lookup?_encode, entries_register] at h
    rw [lookup?_encode]
    rcases Nat.lt_or_ge index.toNat (t.entries kind).length with hlt | hge
    · rw [List.getElem?_append_left hlt] at h
      exact .inl h
    · -- Past the old entries there is the new one, and only in its own table.
      rw [List.getElem?_append_right hge] at h
      split at h
      next hkind =>
        subst hkind
        rw [List.getElem?_singleton, Option.ite_none_right_eq_some] at h
        obtain ⟨hlast, h⟩ := h
        have hsame : index = .ofNat (t.count callback) := UInt32.toNat_inj.mp (by omega)
        rw [data_register, hsame]
        exact .inr ⟨rfl, (Option.some.inj h).symm⟩
      next => cases h
  · rintro (h | ⟨rfl, rfl⟩)
    · exact t.extends_register callback data found h
    · rw [data_register, lookup?_encode, entries_register, if_pos rfl, hindex,
        List.getElem?_concat_length]

end Room

lemma lookup?_register (callback : Callback) (hroom : t.count callback < 2 ^ 32) :
    (t.register callback).2.lookup? (t.register callback).1 = some callback :=
  (lookup?_register_iff hroom _ _).mpr (.inr ⟨rfl, rfl⟩)

lemma entries_default (kind : TableKind) : entries default kind = [] := by cases kind <;> rfl

lemma lookup?_default (data : CallbackData) : (default : CallbackTables).lookup? data = none := by
  unfold lookup?
  split <;> rfl

-- The data that calls of the three kinds give out one after the other, and the tables after them.
-- A call is named by what it registers.
def registerAll (t : CallbackTables) : List Callback → List CallbackData × CallbackTables
  | [] => ([], t)
  | callback :: rest =>
    let first := t.register callback
    let later := first.2.registerAll rest
    (first.1 :: later.1, later.2)

lemma length_registerAll (callbacks : List Callback) :
    (t.registerAll callbacks).1.length = callbacks.length := by
  induction callbacks generalizing t with
  | nil => rfl
  | cons callback rest ih => exact congrArg (· + 1) (ih (t.register callback).2)

lemma extends_registerAll (callbacks : List Callback) :
    t.Extends (t.registerAll callbacks).2 := by
  induction callbacks generalizing t with
  | nil => exact .refl t
  | cons callback rest ih =>
    exact fun data found h => ih _ data found (t.extends_register callback data found h)

def RoomFor (t : CallbackTables) (callbacks : List Callback) : Prop :=
  ∀ kind, (t.entries kind).length + callbacks.countP (·.kind = kind) ≤ 2 ^ 32

section Run

variable {t : CallbackTables} {callbacks : List Callback} (hroom : t.RoomFor callbacks)

lemma RoomFor.first {callback : Callback} (hroom : t.RoomFor (callback :: callbacks)) :
    t.count callback < 2 ^ 32 := by
  have hkind := hroom callback.kind
  rw [List.countP_cons_of_pos (by simp), length_entries] at hkind
  omega

lemma RoomFor.rest {callback : Callback} (hroom : t.RoomFor (callback :: callbacks)) :
    (t.register callback).2.RoomFor callbacks := by
  intro kind
  have hkind := hroom kind
  rw [entries_register, List.length_append]
  by_cases hsame : kind = callback.kind
  · rw [List.countP_cons_of_pos (by simp [hsame])] at hkind
    rw [if_pos hsame, List.length_singleton]
    omega
  · rw [List.countP_cons_of_neg (by simp [Ne.symm hsame])] at hkind
    rwa [if_neg hsame]

include hroom

-- By induction on the calls that are left, from any tables that have room for them.
lemma lookup?_registerAll_iff (data : CallbackData) (found : Callback) :
    (t.registerAll callbacks).2.lookup? data = some found ↔
      t.lookup? data = some found ∨ (data, found) ∈ (t.registerAll callbacks).1.zip callbacks := by
  induction callbacks generalizing t with
  | nil => simp [registerAll]
  | cons callback rest ih =>
    rw [registerAll]
    simp only [List.zip_cons_cons, List.mem_cons, Prod.mk.injEq, ih hroom.rest,
      lookup?_register_iff hroom.first, or_assoc]

lemma lookup?_of_mem_registerAll {data : CallbackData}
    (hdata : data ∈ (t.registerAll callbacks).1) : t.lookup? data = none := by
  induction callbacks generalizing t with
  | nil => simp [registerAll] at hdata
  | cons callback rest ih =>
    rcases List.mem_cons.mp hdata with rfl | hlater
    · exact lookup?_fresh hroom.first
    · have hnone := ih hroom.rest hlater
      rw [Option.eq_none_iff_forall_ne_some] at hnone ⊢
      exact fun found h => hnone found (t.extends_register callback data found h)

lemma nodup_registerAll : (t.registerAll callbacks).1.Nodup := by
  induction callbacks generalizing t with
  | nil => exact List.nodup_nil
  | cons callback rest ih =>
    refine List.nodup_cons.mpr ⟨fun hmem => ?_, ih hroom.rest⟩
    have hfound := t.lookup?_register callback hroom.first
    rw [lookup?_of_mem_registerAll hroom.rest hmem] at hfound
    cases hfound

end Run

end CallbackTables

-- Whatever is registered in whatever order, the tables answer to the data that they have given out
-- and to no other, each with its own entry, and go on doing so.
theorem callback_data_addresses_registrations (callbacks : List Callback)
    (hroom : ∀ kind, callbacks.countP (·.kind = kind) < 2 ^ 32) :
    let made := (default : CallbackTables).registerAll callbacks
    made.1.length = callbacks.length ∧ made.1.Nodup ∧
    (∀ data callback, made.2.lookup? data = some callback ↔
      ∃ i : Nat, made.1[i]? = some data ∧ callbacks[i]? = some callback) ∧
    ∀ later data callback, made.2.lookup? data = some callback →
      (made.2.registerAll later).2.lookup? data = some callback := by
  have hempty : (default : CallbackTables).RoomFor callbacks := by
    intro kind
    rw [CallbackTables.entries_default, List.length_nil, Nat.zero_add]
    exact Nat.le_of_lt (hroom kind)
  refine ⟨CallbackTables.length_registerAll _ _, CallbackTables.nodup_registerAll hempty, ?_,
    fun later => CallbackTables.extends_registerAll _ later⟩
  intro data callback
  rw [CallbackTables.lookup?_registerAll_iff hempty, CallbackTables.lookup?_default,
    List.mem_iff_getElem?]
  simp [List.getElem?_zip_eq_some]

-- A function, a domain callback and two members, of which the second is a property.
theorem callback_data_addresses_registrations_interleaved :
    let entry : FunctionEntry := ⟨⟨⟨0⟩, none⟩, 0, none⟩
    let property : MemberEntry := .property "x" none none 0
    let calls : List Callback :=
      [.function entry, .domain entry, .member (.method entry), .member property]
    let made := (default : CallbackTables).registerAll calls
    made.1 = [⟨0x200000000⟩, ⟨0x100000000⟩, ⟨0x300000000⟩, ⟨0x300000001⟩] ∧
    (∀ kind, calls.countP (·.kind = kind) < 2 ^ 32) ∧
    (∀ later, (made.2.registerAll later).2.lookup? ⟨0x300000001⟩ = some (.member property)) ∧
    ∀ callback, made.2.lookup? ⟨0x10300000001⟩ ≠ some callback := by
  intro entry property calls made
  have hroom : ∀ kind, calls.countP (·.kind = kind) < 2 ^ 32 := by
    intro kind
    cases kind <;> decide
  have hmade : made.1 = [⟨0x200000000⟩, ⟨0x100000000⟩, ⟨0x300000000⟩, ⟨0x300000001⟩] := by decide
  obtain ⟨-, -, hiff, hlater⟩ := callback_data_addresses_registrations calls hroom
  refine ⟨hmade, hroom, fun later => hlater later _ _ ((hiff _ _).mpr ⟨3, ?_, rfl⟩), ?_⟩
  · exact congrArg (·[3]?) hmade
  · intro callback h
    obtain ⟨i, hi, -⟩ := (hiff _ _).mp h
    have hmem := List.mem_of_getElem? hi
    change _ ∈ made.1 at hmem
    rw [hmade] at hmem
    revert hmem
    decide

end HostBoundary
