import HostBoundary.CommandLine.Run
import HostBoundary.Proofs.Evaluation

namespace HostBoundary

open Environment

variable {n : Int} {d : Document} {i depth limit : Nat} {items : List Document}
  {entries : List (String × Document)} {r : ObjectRef} {o : HeapObject} {v : Value}
  {elements : List Value} {value : String → Value}

namespace Document

def Equals : Document → Int → Prop
  | .integer m, n => m = n
  | .float x, n => x.Equals n
  | _, _ => False

def Nearest : Document → Binary64 → Prop
  | .integer n, x => x.Nearest n
  | .float y, x => x = y
  | _, _ => False

-- A number comes back as the integer of 32 bits that it equals. One that equals none comes back
-- as the nearest double.
inductive NumberAs (d : Document) : Document → Prop
  | integer {n : Int} (hn : Binary64.Word n) (hequals : d.Equals n) : NumberAs d (.integer n)
  | float {x : Binary64} (hnone : ∀ n, Binary64.Word n → ¬ d.Equals n) (hx : d.Nearest x) :
      NumberAs d (.float x)

-- How a document comes back, containers only to the given depth.
def AppearsAs : Nat → Document → Document → Prop
  | _, .null, shown => shown = .null
  | _, .boolean b, shown => shown = .boolean b
  | _, .integer n, shown => NumberAs (.integer n) shown
  | _, .float x, shown => NumberAs (.float x) shown
  | _, .text s, shown => shown = .text s
  | 0, .array _, shown => shown = .text "[Array]"
  | 0, .object _, shown => shown = .text "[Object]"
  | depth + 1, .array items, shown =>
    ∃ items', shown = .array items' ∧ List.Forall₂ (AppearsAs depth) items items'
  | depth + 1, .object entries, shown =>
    ∃ entries', shown = .object entries' ∧ List.Forall₂
      (fun entry entry' => entry'.1 = entry.1 ∧ AppearsAs depth entry.2 entry'.2) entries entries'

-- Lengths are counted in 32 bits, and the names of an object are listed in an array.
def Fits (limit : Nat) (d : Document) : Prop := ∀ part ∈ d.parts,
  part.Proper ∧ part.width < 2 ^ 32 ∧ (part.isObject = true → part.width ≤ limit)

end Document

namespace Tagged

lemma text?_ofUnits (flags : Flags) (s : String) :
    (ofUnits flags (Units.ofString s)).text? = some s := by
  unfold ofUnits
  split <;> simp only [text?, Units.toStringLossy_ofString]

lemma describePrimitive_ofUnits (flags : Flags) (s : String) :
    CommandLine.describePrimitive (ofUnits flags (Units.ofString s)) = .text s := by
  have htext := text?_ofUnits flags s
  unfold ofUnits at htext ⊢
  split <;> simp_all [CommandLine.describePrimitive]

lemma handle?_ofUnits (flags : Flags) (units : Units) : (ofUnits flags units).handle? = none := by
  unfold ofUnits
  split <;> rfl

lemma handle?_ofNumber (x : Binary64) : (ofNumber x).handle? = none := by
  unfold ofNumber
  split <;> rfl

lemma numberAs_int (hn : Binary64.Word n) (hequals : d.Equals n) :
    d.NumberAs (CommandLine.describePrimitive (.int (Int32.ofInt n))) := by
  have hint : (Int32.ofInt n).toInt = n := Int32.toInt_ofInt_of_le hn.1 hn.2
  rw [CommandLine.describePrimitive, hint]
  exact .integer hn hequals

lemma numberAs_ofNumber (x : Binary64) :
    (Document.float x).NumberAs (CommandLine.describePrimitive (.ofNumber x)) := by
  by_cases hequals : ∃ n, Binary64.Word n ∧ x.Equals n
  · obtain ⟨n, hn, hx⟩ := hequals
    rw [ofNumber_of_equals hx hn]
    exact numberAs_int hn hx
  · have hnone : ∀ n, Binary64.Word n → ¬ x.Equals n := fun n hn hx => hequals ⟨n, hn, hx⟩
    rw [ofNumber_of_not_equals hnone]
    exact .float hnone rfl

-- An integer beyond 32 bits is rounded, and what it is rounded to is no integer of 32 bits.
lemma numberAs_ofNumber_ofInt (hn : ¬ Binary64.Word n) (hlow : -2 ^ 63 ≤ n) (hhigh : n < 2 ^ 64) :
    (Document.integer n).NumberAs (CommandLine.describePrimitive (.ofNumber (.ofInt n))) := by
  have hnearest : (Binary64.ofInt n).Nearest n := Binary64.nearest_ofInt (by omega)
  rw [ofNumber_of_not_equals fun m hm => hnearest.not_equals hn hm]
  exact .float (fun m hm (hequals : n = m) => hn (hequals ▸ hm)) hnearest

end Tagged

namespace Heap

variable {h : Heap}

lemma Depicts.leaf (hv : h.Depicts v d) (hleaf : d.isContainer = false) (hd : d.Proper)
    (flags : Flags) (depth : Nat) :
    ∃ tagged, h.toTagged flags v = .ok tagged ∧ tagged.handle? = none ∧
      d.AppearsAs depth (CommandLine.describePrimitive tagged) := by
  cases hv with
  | null | boolean => exact ⟨_, rfl, rfl, by rw [Document.AppearsAs]; rfl⟩
  | float x =>
    refine ⟨_, rfl, Tagged.handle?_ofNumber x, ?_⟩
    rw [Document.AppearsAs]
    exact Tagged.numberAs_ofNumber x
  | text s =>
    refine ⟨_, rfl, Tagged.handle?_ofUnits .., ?_⟩
    rw [Document.AppearsAs]
    exact Tagged.describePrimitive_ofUnits flags s
  | integer n =>
    simp only [Document.AppearsAs, Value.ofInt]
    split
    · rename_i hword
      exact ⟨_, rfl, rfl, Tagged.numberAs_int hword rfl⟩
    · rename_i hword
      exact ⟨_, rfl, Tagged.handle?_ofNumber _, Tagged.numberAs_ofNumber_ofInt hword hd.1 hd.2⟩
  | array | object => exact nomatch hleaf

end Heap

open Act (Turns turns_pure)

namespace CommandLine

variable {σ : Type} {host : Host σ} {n : EnvironmentId} {e : EngineId} {flags : Flags} {h : Heap}

end CommandLine

open CommandLine (describe maxDepth)

variable {σ τ : Type} {host : Host σ} {diary : σ → List (World Unit)}

def attached : World (List (World Unit)) :=
  World.after handlers { host := [] } [.newEngine {}, .attach ⟨0⟩]

end HostBoundary
