import HostBoundary.Document.Script
import Mathlib

namespace HostBoundary

variable {name : String} {P : Document → Prop} {significand : Nat}

namespace Directory

variable {α : Type} {d : Directory α}

def Sorted (d : Directory α) : Prop := d.Pairwise (·.1 < ·.1)

lemma mem_insert {x : α} {entry : String × α} (h : entry ∈ d.insert name x) :
    entry = (name, x) ∨ entry ∈ d := by
  induction d with
  | nil => exact .inl (List.mem_singleton.mp h)
  | cons first rest ih =>
    obtain ⟨other, y⟩ := first
    simp only [insert] at h
    split at h
    · exact List.mem_cons.mp h
    · split at h
      · exact (List.mem_cons.mp h).imp id (List.mem_cons_of_mem _)
      · rcases List.mem_cons.mp h with rfl | h
        · exact .inr List.mem_cons_self
        · exact (ih h).imp id (List.mem_cons_of_mem _)

lemma Sorted.insert (hd : d.Sorted) (name : String) (x : α) : (d.insert name x).Sorted := by
  induction d with
  | nil => exact List.pairwise_singleton _ _
  | cons first rest ih =>
    obtain ⟨other, y⟩ := first
    obtain ⟨hfirst, hrest⟩ := List.pairwise_cons.mp hd
    simp only [Directory.insert]
    split
    · rename_i hless
      refine List.pairwise_cons.mpr ⟨fun entry hentry => ?_, hd⟩
      rcases List.mem_cons.mp hentry with rfl | hentry
      · exact hless
      · exact hless.trans (hfirst entry hentry)
    · split
      · rename_i heq
        exact List.pairwise_cons.mpr ⟨heq ▸ hfirst, hrest⟩
      · rename_i hnot hne
        refine List.pairwise_cons.mpr ⟨fun entry hentry => ?_, ih hrest⟩
        rcases mem_insert hentry with rfl | hentry
        · exact lt_of_le_of_ne (not_lt.mp hnot) (Ne.symm hne)
        · exact hfirst entry hentry

lemma Sorted.nodup (hd : d.Sorted) : (d.map (·.1)).Nodup :=
  (List.pairwise_map.mpr hd).imp ne_of_lt

end Directory

namespace Document

variable {d : Document}

mutual

def parts : Document → List Document
  | .array items => .array items :: itemParts items
  | .object entries => .object entries :: entryParts entries
  | leaf => [leaf]

def itemParts : List Document → List Document
  | [] => []
  | item :: rest => parts item ++ itemParts rest

def entryParts : List (String × Document) → List Document
  | [] => []
  | (_, entry) :: rest => parts entry ++ entryParts rest

end

def isObject : Document → Bool
  | .object _ => true
  | _ => false

def isContainer : Document → Bool
  | .array _ | .object _ => true
  | _ => false

def width : Document → Nat
  | .array items => items.length
  | .object entries => entries.length
  | _ => 0

def containers (d : Document) : Nat := d.parts.countP isContainer

def objects (d : Document) : Nat := d.parts.countP isObject

lemma itemParts_eq (items : List Document) : itemParts items = items.flatMap parts := by
  induction items with
  | nil => rfl
  | cons item rest ih => rw [itemParts, ih, List.flatMap_cons]

section

variable (entries : List (String × Document))

lemma entryParts_eq : entryParts entries = entries.flatMap (·.2.parts) := by
  induction entries with
  | nil => rfl
  | cons entry rest ih => rw [entryParts, ih, List.flatMap_cons]

section

variable (items : List Document)

lemma parts_array : (array items).parts = .array items :: items.flatMap parts := by
  rw [parts, itemParts_eq]

lemma parts_object : (object entries).parts = .object entries :: entries.flatMap (·.2.parts) := by
  rw [parts, entryParts_eq]

lemma containers_array : (array items).containers = (items.map containers).sum + 1 := by
  rw [containers, parts_array, List.countP_cons, List.countP_flatMap]
  rfl

lemma containers_object : (object entries).containers = (entries.map (·.2.containers)).sum + 1 := by
  rw [containers, parts_object, List.countP_cons, List.countP_flatMap]
  rfl

end

end

lemma forall_parts_array {items : List Document} :
    (∀ part ∈ (array items).parts, P part) ↔
      P (array items) ∧ ∀ item ∈ items, ∀ part ∈ item.parts, P part := by
  rw [parts_array, List.forall_mem_cons, List.forall_mem_flatMap]

lemma forall_parts_object {entries : List (String × Document)} :
    (∀ part ∈ (object entries).parts, P part) ↔
      P (object entries) ∧ ∀ entry ∈ entries, ∀ part ∈ entry.2.parts, P part := by
  rw [parts_object, List.forall_mem_cons, List.forall_mem_flatMap]

-- What can be relied on of a part: the entries of an object are a directory, and an integer
-- fits 64 bits.
def Proper : Document → Prop
  | .object entries => Directory.Sorted entries
  | .integer n => -2 ^ 63 ≤ n ∧ n < 2 ^ 64
  | _ => True

def Canonical (d : Document) : Prop := ∀ part ∈ d.parts, part.Proper

lemma canonical_array {items : List Document} :
    (array items).Canonical ↔ ∀ item ∈ items, item.Canonical :=
  forall_parts_array.trans (and_iff_right trivial)

lemma canonical_object {entries : List (String × Document)} :
    (object entries).Canonical ↔
      Directory.Sorted entries ∧ ∀ entry ∈ entries, entry.2.Canonical :=
  forall_parts_object

namespace Reader

variable {α β : Type} {P : α → Prop} {Q : β → Prop} {a : α} {r : Reader α} {f : α → Reader β}

def Gives (r : Reader α) (P : α → Prop) : Prop := ∀ c a c', r c = .ok (a, c') → P a

section

variable (cause : Cause)

lemma Gives.bind (hr : Gives r P) (hf : ∀ a, P a → Gives (f a) Q) : Gives (r >>= f) Q := by
  intro c b c' h
  change (r c >>= fun p => f p.1 p.2) = _ at h
  cases hc : r c with
  | error fault => rw [hc] at h; exact nomatch h
  | ok p => rw [hc] at h; exact hf p.1 (hr c p.1 p.2 hc) p.2 b c' h

end

lemma Gives.result (hr : Gives r P) {c : Cursor} (h : (r c).map (·.1) = .ok a) : P a := by
  cases hc : r c with
  | error fault => rw [hc] at h; exact nomatch h
  | ok p => rw [hc] at h; exact Except.ok.inj h ▸ hr c p.1 p.2 hc

end Reader

open Reader

section

variable (negative : Bool)

end

end Document

end HostBoundary
