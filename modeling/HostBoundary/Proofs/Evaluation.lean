import HostBoundary.Proofs.Documents
import HostBoundary.Proofs.HeapActs

namespace HostBoundary

namespace HeapObject

lemma defineIn_of_new {key : Key} {properties : List Property}
    (hnew : key ∉ properties.map (·.key)) (v : Value) (enumerable : Bool) :
    defineIn key v enumerable properties = properties ++ [⟨key, .data v, enumerable⟩] := by
  induction properties with
  | nil => rfl
  | cons p rest ih =>
    simp only [List.map_cons, List.mem_cons, not_or] at hnew
    rw [defineIn, if_neg (Ne.symm hnew.1), ih hnew.2]
    rfl

def listed (entries : List (String × α)) (value : String → Value) : List Property :=
  entries.map fun entry => ⟨.ofName entry.1, .data (value entry.1), true⟩

def record (entries : List (String × α)) (value : String → Value) : HeapObject :=
  { body := .plain, properties := listed entries value }

lemma listed_cons (entry : String × α) (rest : List (String × α)) (value : String → Value) :
    listed (entry :: rest) value =
      ⟨.ofName entry.1, .data (value entry.1), true⟩ :: listed rest value :=
  rfl

lemma listed_update {entries : List (String × α)} {name : String}
    (hnew : name ∉ entries.map (·.1)) (value : String → Value) (v : Value) :
    listed entries (Function.update value name v) = listed entries value := by
  refine List.map_congr_left fun entry hentry => ?_
  have hother : entry.1 ≠ name := fun h => hnew (h ▸ List.mem_map_of_mem hentry)
  rw [Function.update_of_ne hother]

end HeapObject

namespace Heap

variable {h h' : Heap}

-- The value stands for the document: containers are objects of their own.
inductive Depicts (h : Heap) : Value → Document → Prop
  | null : Depicts h .null .null
  | boolean (b : Bool) : Depicts h (.boolean b) (.boolean b)
  | integer (n : Int) : Depicts h (.ofInt n) (.integer n)
  | float (x : Binary64) : Depicts h (.number x) (.float x)
  | text (s : String) : Depicts h (.text s) (.text s)
  | array {r : ObjectRef} {elements : List Value} {items : List Document}
      (ho : h.object? r = some (.ofBody (.array elements.toArray)))
      (hlength : elements.length = items.length)
      (hitems : ∀ (i : Nat) v d, elements[i]? = some v → items[i]? = some d → Depicts h v d) :
      Depicts h (.object r) (.array items)
  | object {r : ObjectRef} {entries : List (String × Document)} (value : String → Value)
      (ho : h.object? r = some (.record entries value))
      (hentries : ∀ entry ∈ entries, Depicts h (value entry.1) entry.2) :
      Depicts h (.object r) (.object entries)

lemma Depicts.later {v : Value} {d : Document} (hv : h.Depicts v d) {k : Nat}
    (hadds : h.Adds h' k) : h'.Depicts v d := by
  induction hv with
  | null => exact .null
  | boolean b => exact .boolean b
  | integer n => exact .integer n
  | float x => exact .float x
  | text s => exact .text s
  | array ho hlength _ ih => exact .array (hadds.object _ _ ho) hlength ih
  | object value ho _ ih => exact .object value (hadds.object _ _ ho) ih

mutual

lemma depicts_ofDocument (h : Heap) {d : Document} (hd : d.Canonical) (hwf : h.WellFormed)
    (hroom : h.objects.slots.size + d.containers < 2 ^ 32) :
    h.Adds (h.ofDocument d).2 d.containers ∧ (h.ofDocument d).2.Depicts (h.ofDocument d).1 d := by
  cases d with
  | null => exact ⟨.refl hwf, .null⟩
  | boolean b => exact ⟨.refl hwf, .boolean b⟩
  | integer n => exact ⟨.refl hwf, .integer n⟩
  | float x => exact ⟨.refl hwf, .float x⟩
  | text s => exact ⟨.refl hwf, .text s⟩
  | array items =>
    rw [Document.containers_array] at hroom ⊢
    obtain ⟨hadds, hstands⟩ := depicts_ofItems h (Document.canonical_array.mp hd) hwf (by omega)
    have hsize := hadds.size
    obtain ⟨hlast, hnew, -⟩ := adds_allocate hadds.wellFormed (by omega)
      (.ofBody (.array (h.ofItems items).1.toArray))
    refine ⟨hadds.trans hlast, .array hnew hstands.length_eq fun i v d hv hd => ?_⟩
    obtain ⟨hi, rfl⟩ := List.getElem?_eq_some_iff.mp hv
    obtain ⟨hi', rfl⟩ := List.getElem?_eq_some_iff.mp hd
    exact (hstands.get hi hi').later hlast
  | object entries =>
    rw [Document.containers_object] at hroom ⊢
    obtain ⟨hsorted, hentries⟩ := Document.canonical_object.mp hd
    obtain ⟨hadds, value, hobject, hstands⟩ := depicts_ofEntries h (.ofBody .plain) hentries
      (Directory.Sorted.nodup hsorted) hwf (by omega) (fun _ _ => List.not_mem_nil)
    have hsize := hadds.size
    obtain ⟨hlast, hnew, -⟩ := adds_allocate hadds.wellFormed (by omega) (.record entries value)
    have hbuilt : h.ofDocument (.object entries) =
        (.object ((h.ofEntries (.ofBody .plain) entries).2.allocate (.record entries value)).1,
          ((h.ofEntries (.ofBody .plain) entries).2.allocate (.record entries value)).2) := by
      have hrecord : (h.ofEntries (.ofBody .plain) entries).1 = .record entries value := hobject
      rw [ofDocument, ← hrecord]
    rw [hbuilt]
    exact ⟨hadds.trans hlast,
      .object value hnew fun entry hentry => (hstands entry hentry).later hlast⟩

lemma depicts_ofItems (h : Heap) {items : List Document} (hitems : ∀ item ∈ items, item.Canonical)
    (hwf : h.WellFormed)
    (hroom : h.objects.slots.size + (items.map Document.containers).sum < 2 ^ 32) :
    h.Adds (h.ofItems items).2 (items.map Document.containers).sum ∧
      List.Forall₂ (h.ofItems items).2.Depicts (h.ofItems items).1 items := by
  cases items with
  | nil => exact ⟨.refl hwf, .nil⟩
  | cons item rest =>
    simp only [List.map_cons, List.sum_cons] at hroom ⊢
    obtain ⟨hitem, hrest⟩ := List.forall_mem_cons.mp hitems
    obtain ⟨hadds, hstands⟩ := depicts_ofDocument h hitem hwf (by omega)
    have hsize := hadds.size
    obtain ⟨hadds', hstands'⟩ :=
      depicts_ofItems (h.ofDocument item).2 hrest hadds.wellFormed (by omega)
    exact ⟨hadds.trans hadds', .cons (hstands.later hadds') hstands'⟩

lemma depicts_ofEntries (h : Heap) (object : HeapObject) {entries : List (String × Document)}
    (hentries : ∀ entry ∈ entries, entry.2.Canonical) (hnodup : (entries.map (·.1)).Nodup)
    (hwf : h.WellFormed)
    (hroom : h.objects.slots.size + (entries.map (·.2.containers)).sum < 2 ^ 32)
    (hnew : ∀ entry ∈ entries, Key.ofName entry.1 ∉ object.properties.map (·.key)) :
    h.Adds (h.ofEntries object entries).2 (entries.map (·.2.containers)).sum ∧
      ∃ value : String → Value,
        (h.ofEntries object entries).1 =
          { object with properties := object.properties ++ HeapObject.listed entries value } ∧
        ∀ entry ∈ entries, (h.ofEntries object entries).2.Depicts (value entry.1) entry.2 := by
  cases entries with
  | nil => exact ⟨.refl hwf, fun _ => .undefined, by simp [ofEntries, HeapObject.listed], nofun⟩
  | cons entry rest =>
    simp only [List.map_cons, List.sum_cons] at hroom ⊢
    obtain ⟨hentry, hrest⟩ := List.forall_mem_cons.mp hentries
    obtain ⟨hfirst, hothers⟩ := List.forall_mem_cons.mp hnew
    obtain ⟨hother, hnodup⟩ := List.nodup_cons.mp hnodup
    have hdistinct : ∀ later ∈ rest, later.1 ≠ entry.1 := fun later hlater heq =>
      hother (List.mem_map.mpr ⟨later, hlater, heq⟩)
    obtain ⟨hadds, hstands⟩ := depicts_ofDocument h hentry hwf (by omega)
    have hsize := hadds.size
    let v := (h.ofDocument entry.2).1
    have hdefine : object.define (.ofName entry.1) v true = { object with
        properties := object.properties ++ [⟨.ofName entry.1, .data v, true⟩] } := by
      rw [HeapObject.define, HeapObject.defineIn_of_new hfirst]
    have hnew' : ∀ later ∈ rest, Key.ofName later.1 ∉
        (object.define (.ofName entry.1) v true).properties.map (·.key) := by
      intro later hlater
      have hne : Key.ofName later.1 ≠ .ofName entry.1 := fun heq =>
        hdistinct later hlater (Key.ofName_injective heq)
      simpa [hdefine, hne] using hothers later hlater
    obtain ⟨hadds', value, hobject, hstands'⟩ := depicts_ofEntries (h.ofDocument entry.2).2
      (object.define (.ofName entry.1) v true) hrest hnodup hadds.wellFormed (by omega) hnew'
    refine ⟨hadds.trans hadds', Function.update value entry.1 v, hobject.trans ?_, ?_⟩
    · rw [hdefine, HeapObject.listed_cons, HeapObject.listed_update hother]
      simp
    · refine List.forall_mem_cons.mpr ⟨?_, fun later hlater => ?_⟩
      · rw [Function.update_self]
        exact hstands.later hadds'
      · rw [Function.update_of_ne (hdistinct later hlater)]
        exact hstands' later hlater

end

end Heap

end HostBoundary
