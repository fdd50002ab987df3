import HostBoundary.Proofs.HeapRuns

namespace HostBoundary

variable {n : Nat} {key : Key} {enumerable : Bool}

lemma Numeral.natural?_toString (n : Nat) : natural? (toString n).toList = some n := by
  have hdigits : (toString n).toList = Nat.toDigits 10 n := Nat.toList_repr
  have hvalue : ∀ c ∈ Nat.toDigits 10 n, digitValue? c = some (c.toNat - '0'.toNat) := by
    intro c hc
    have hdigit := Nat.isDigit_of_mem_toDigits (by decide) (by decide) hc
    rw [Char.isDigit, Bool.and_eq_true_iff, decide_eq_true_iff, decide_eq_true_iff] at hdigit
    exact if_pos hdigit
  have hall : (Nat.toDigits 10 n).all isDigit = true :=
    List.all_eq_true.mpr fun c hc => by rw [isDigit, hvalue c hc]; rfl
  have hsum : ofDigits (Nat.toDigits 10 n) = n := by
    refine Eq.trans ?_ (Nat.ofDigitChars_toDigits (b := 10) (by decide) (by decide))
    exact List.foldl_ext _ _ _ fun sum c hc => by rw [hvalue c hc]; rfl
  simp [natural?, hall, hsum, Nat.toDigits_ne_nil]

namespace Key

lemma text_ofName (name : String) : (ofName name).text = name := by
  unfold ofName
  split
  · split
    · rename_i n _ hindex
      have hlt : n < 2 ^ 32 := Nat.lt_trans hindex.1 (by decide)
      rw [text, UInt32.toNat_ofNat_of_lt' hlt, hindex.2]
    · rfl
  · rfl

lemma ofName_injective : Function.Injective ofName :=
  Function.LeftInverse.injective text_ofName

lemma toValue_ofName (name : String) : (ofName name).toValue = .text name := by
  rw [toValue, text_ofName]

-- A key that its text stands for.
def Canonical (key : Key) : Prop := ofName key.text = key

lemma canonical_ofName (name : String) : (ofName name).Canonical :=
  congrArg ofName (text_ofName name)

lemma toNat_ofNat (hn : n < maxIndex) : (UInt32.ofNat n).toNat = n :=
  UInt32.toNat_ofNat_of_lt' (Nat.lt_trans hn (by decide))

lemma canonical_index (hn : n < maxIndex) : (index (.ofNat n)).Canonical := by
  rw [Canonical, text, toNat_ofNat hn, ofName, Numeral.natural?_toString]
  exact if_pos ⟨hn, rfl⟩

-- Keys in the order in which they are listed: indices ascending, then names as they come.
def listing (keys : List Key) : List Key :=
  ((keys.filterMap index?).mergeSort (· ≤ ·)).map index ++ keys.filter (·.index?.isNone)

end Key

lemma Heap.canonical_keyOf (h : Heap) (key : Value) : (h.keyOf key).Canonical := by
  cases key with
  | int i =>
    have hhigh := i.toInt_lt
    rw [keyOf]
    split
    · exact Key.canonical_index (by unfold Key.maxIndex; omega)
    · exact Key.canonical_ofName _
  | number x =>
    rw [keyOf]
    split
    next hindex =>
      simp only [Bool.and_eq_true_iff, decide_eq_true_iff] at hindex
      exact Key.canonical_index (by omega)
    next => exact Key.canonical_ofName _
  | _ => exact Key.canonical_ofName _

namespace HeapObject

def shown (properties : List Property) : List Key :=
  (properties.filter (·.enumerable)).map (·.key)

-- The keys that are shown are shown once each.
structure Listed (properties : List Property) : Prop where
  once : (shown properties).Nodup
  canonical : ∀ key ∈ shown properties, key.Canonical

lemma listed_nil : Listed [] := ⟨List.nodup_nil, by simp [shown]⟩

variable {properties : List Property}

lemma mem_keys_of_mem_shown (hk : key ∈ shown properties) : key ∈ properties.map (·.key) :=
  (List.filter_sublist.map _).subset hk

lemma shown_defineIn (key : Key) (value : Value) (enumerable : Bool) (properties : List Property) :
    shown (defineIn key value enumerable properties) = shown properties ++
      if enumerable = true ∧ key ∉ properties.map (·.key) then [key] else [] := by
  induction properties with
  | nil => cases enumerable <;> simp [defineIn, shown]
  | cons p rest ih =>
    rw [defineIn]
    split
    next hp => simp [shown, List.filter_cons, hp, apply_ite]
    next hp =>
      have hne : key ≠ p.key := Ne.symm hp
      unfold shown at ih ⊢
      cases hshown : p.enumerable <;> simp [hshown, ih, hne]

lemma Listed.defineIn (hl : Listed properties) (value : Value)
    (hkey : enumerable = true → key.Canonical) :
    Listed (defineIn key value enumerable properties) := by
  have hshown := shown_defineIn key value enumerable properties
  split at hshown
  next hnew =>
    refine ⟨?_, ?_⟩ <;> rw [hshown]
    · exact hl.once.append (List.nodup_singleton _)
        (List.disjoint_singleton.mpr fun hk => hnew.2 (mem_keys_of_mem_shown hk))
    · exact List.forall_mem_append.mpr ⟨hl.canonical, by simpa using hkey hnew.1⟩
  next => exact ⟨by rw [hshown, List.append_nil]; exact hl.once,
      by rw [hshown, List.append_nil]; exact hl.canonical⟩

lemma data_defineIn (hdata : ∀ p ∈ properties, ∃ v, p.slot = .data v) (key : Key) (value : Value)
    (enumerable : Bool) :
    ∀ p ∈ defineIn key value enumerable properties, ∃ v, p.slot = .data v := by
  intro p hp
  rcases mem_defineIn _ _ _ _ p hp with hp | hslot
  · exact hdata p hp
  · exact ⟨value, hslot⟩

-- Properties that a new object can have: each holds a value.
structure Stocked (properties : List Property) : Prop where
  data : ∀ p ∈ properties, ∃ v, p.slot = .data v
  listed : Listed properties

lemma stocked_nil : Stocked [] := ⟨by simp, listed_nil⟩

lemma Stocked.defineIn (hs : Stocked properties) (value : Value)
    (hkey : enumerable = true → key.Canonical) :
    Stocked (defineIn key value enumerable properties) :=
  ⟨data_defineIn hs.data key value enumerable, hs.listed.defineIn value hkey⟩

lemma Stocked.hide (hs : Stocked properties) (key : Key) (value : Value) :
    Stocked (HeapObject.defineIn key value false properties) :=
  hs.defineIn value nofun

end HeapObject

-- How many elements an object has by its body.
def Body.extent : Body → Nat
  | .array elements => elements.size
  | .typedArray view => view.length
  | _ => 0

end HostBoundary
