import HostBoundary.Proofs.History

namespace HostBoundary.Heap

-- The open scopes, innermost first. The last one is the base scope.
def scopes (h : Heap) : List (List ObjectRef) := h.pushed ++ [h.base]

def Rooted (h : Heap) (r : ObjectRef) : Prop := ∃ scope ∈ h.scopes, r ∈ scope

def Innermost (h : Heap) (r : ObjectRef) : Prop := ∃ top rest, h.scopes = top :: rest ∧ r ∈ top

-- Pushes are refused at the limit only.
def Saturated (h : Heap) : Prop := 0 < h.overflow → h.limits.maxScopeDepth ≤ h.pushed.length

-- A heap with `k` more pushes open than before. Of the scopes that were there the innermost
-- may have got more to keep, and nothing else about them has changed.
structure Opens (k : Nat) (h h' : Heap) : Prop where
  size : h.objects.slots.size ≤ h'.objects.slots.size
  limits : h'.limits = h.limits
  global : h'.global = h.global
  scopes : ∃ top rest inner more, h.scopes = top :: rest ∧
    h'.scopes = inner ++ (more ++ top) :: rest ∧
    inner.length + h'.overflow = k + h.overflow ∧ (0 < h.overflow → inner = [])

lemma exists_scopes (h : Heap) : ∃ top rest, h.scopes = top :: rest := by
  unfold scopes
  cases h.pushed with
  | nil | cons => exact ⟨_, _, rfl⟩

lemma length_scopes (h : Heap) : h.scopes.length = h.pushed.length + 1 := by simp [scopes]

lemma scopes_of_pushed (h : Heap) (scope : List ObjectRef) (outer : List (List ObjectRef))
    (hp : h.pushed = scope :: outer) : h.scopes = scope :: (outer ++ [h.base]) := by
  simp [scopes, hp]

lemma scopes_root (h : Heap) (r : ObjectRef) (top : List ObjectRef) (rest : List (List ObjectRef))
    (hs : h.scopes = top :: rest) : (h.root r).scopes = (r :: top) :: rest := by
  unfold scopes at hs ⊢
  unfold root
  cases hp : h.pushed with
  | nil | cons =>
    rw [hp] at hs
    obtain ⟨rfl, rfl⟩ := List.cons.inj hs
    simp

lemma Innermost.rooted {h : Heap} {r : ObjectRef} (hr : h.Innermost r) : h.Rooted r := by
  obtain ⟨top, rest, hs, hmem⟩ := hr
  exact ⟨top, by simp [hs], hmem⟩

lemma innermost_root (h : Heap) (r : ObjectRef) : (h.root r).Innermost r := by
  obtain ⟨top, rest, hs⟩ := h.exists_scopes
  exact ⟨_, _, h.scopes_root r top rest hs, List.mem_cons_self⟩

lemma innermost_allocate (h : Heap) (o : HeapObject) :
    (h.allocate o).2.Innermost (h.allocate o).1 :=
  innermost_root _ _

lemma rooted_iff (h : Heap) (r : ObjectRef) :
    h.Rooted r ↔ r ∈ h.base ∨ ∃ scope ∈ h.pushed, r ∈ scope := by
  simp only [Rooted, scopes, List.mem_append, List.mem_singleton]
  constructor
  · rintro ⟨scope, hs | rfl, hr⟩
    · exact .inr ⟨scope, hs, hr⟩
    · exact .inl hr
  · rintro (hr | ⟨scope, hs, hr⟩)
    · exact ⟨h.base, .inr rfl, hr⟩
    · exact ⟨scope, .inl hs, hr⟩

lemma rooted_root (h : Heap) (r s : ObjectRef) (hs : (h.root r).Rooted s) : s = r ∨ h.Rooted s := by
  obtain ⟨top, rest, htop⟩ := h.exists_scopes
  obtain ⟨scope, hmem, hin⟩ := hs
  rw [h.scopes_root r top rest htop] at hmem
  rcases List.mem_cons.mp hmem with rfl | hmem
  · rcases List.mem_cons.mp hin with rfl | hin
    · exact .inl rfl
    · exact .inr ⟨top, by simp [htop], hin⟩
  · exact .inr ⟨scope, by simp [htop, hmem], hin⟩

namespace Opens

variable {h h' h'' : Heap} {j k : Nat} {r : ObjectRef}

lemma of_eq (hsize : h.objects.slots.size ≤ h'.objects.slots.size) (hlimits : h'.limits = h.limits)
    (hglobal : h'.global = h.global) (hscopes : h'.scopes = h.scopes)
    (hoverflow : h'.overflow = h.overflow) : Opens 0 h h' := by
  obtain ⟨top, rest, hs⟩ := h.exists_scopes
  exact ⟨hsize, hlimits, hglobal, top, rest, [], [], hs, hscopes.trans hs, by simp [hoverflow],
    fun _ => rfl⟩

lemma refl (h : Heap) : Opens 0 h h := .of_eq (Nat.le_refl _) rfl rfl rfl rfl

lemma trans (hab : Opens j h h') (hbc : Opens k h' h'') : Opens (j + k) h h'' := by
  obtain ⟨top, rest, inner, more, hs, hs', hcount, hnone⟩ := hab.scopes
  obtain ⟨top', rest', inner', more', ht, ht', hcount', hnone'⟩ := hbc.scopes
  refine ⟨Nat.le_trans hab.size hbc.size, hbc.limits.trans hab.limits, hbc.global.trans hab.global,
    top, rest, ?_⟩
  rw [ht] at hs'
  cases inner with
  | nil =>
    obtain ⟨rfl, rfl⟩ := List.cons.inj hs'
    refine ⟨inner', more' ++ more, hs, by simp [ht'], by simp at hcount; omega, fun hpos => ?_⟩
    simp only [List.length_nil] at hcount
    exact hnone' (by omega)
  | cons scope scopes =>
    obtain ⟨rfl, rfl⟩ := List.cons.inj hs'
    refine ⟨inner' ++ (more' ++ top') :: scopes, more, hs, by simp [ht'], ?_, fun hpos => ?_⟩
    · simp only [List.length_append, List.length_cons] at hcount ⊢
      omega
    · exact absurd (hnone hpos) (by simp)

lemma rooted (ho : Opens k h h') (hr : h.Rooted r) : h'.Rooted r := by
  obtain ⟨top, rest, inner, more, hs, hs', -, -⟩ := ho.scopes
  obtain ⟨scope, hmem, hin⟩ := hr
  rw [hs] at hmem
  rcases List.mem_cons.mp hmem with rfl | hmem
  · exact ⟨more ++ scope, by simp [hs'], List.mem_append_right _ hin⟩
  · exact ⟨scope, by simp [hs', hmem], hin⟩

lemma level (ho : Opens 0 h h') : h'.overflow = h.overflow ∧
    ∃ top rest more, h.scopes = top :: rest ∧ h'.scopes = (more ++ top) :: rest := by
  obtain ⟨top, rest, inner, more, hs, hs', hcount, hnone⟩ := ho.scopes
  have hinner : inner = [] := by
    rcases Nat.eq_zero_or_pos h.overflow with hzero | hpos
    · exact List.length_eq_zero_iff.mp (by omega)
    · exact hnone hpos
  subst hinner
  exact ⟨by simpa using hcount, top, rest, more, hs, hs'⟩

lemma innermost (ho : Opens 0 h h') (hr : h.Innermost r) : h'.Innermost r := by
  obtain ⟨-, top, rest, more, hs, hs'⟩ := ho.level
  obtain ⟨top', rest', ht, hmem⟩ := hr
  obtain ⟨rfl, rfl⟩ := List.cons.inj (hs.symm.trans ht)
  exact ⟨_, _, hs', List.mem_append_right _ hmem⟩

lemma saturated (ho : Opens 0 h h') (hs : h.Saturated) : h'.Saturated := by
  obtain ⟨hoverflow, top, rest, more, htop, htop'⟩ := ho.level
  have hlen := h.length_scopes
  have hlen' := h'.length_scopes
  rw [htop] at hlen
  rw [htop'] at hlen'
  simp only [List.length_cons] at hlen hlen'
  intro hpos
  rw [ho.limits]
  have := hs (hoverflow ▸ hpos)
  omega

lemma popScope (ho : Opens (k + 1) h h') : Opens k h h'.popScope.2 := by
  obtain ⟨top, rest, inner, more, hs, hs', hcount, hnone⟩ := ho.scopes
  unfold Heap.popScope
  by_cases hpos : 0 < h'.overflow
  · rw [if_pos hpos]
    exact ⟨ho.size, ho.limits, ho.global, top, rest, inner, more, hs, hs', by simp only; omega, hnone⟩
  · rw [if_neg hpos]
    cases inner with
    | nil =>
      simp only [List.length_nil] at hcount
      omega
    | cons scope scopes =>
      have hzero : h.overflow = 0 := by
        by_contra hne
        exact absurd (hnone (by omega)) (by simp)
      cases hp : h'.pushed with
      | nil => simp [Heap.scopes, hp] at hs'
      | cons scope' outer =>
        rw [h'.scopes_of_pushed _ _ hp] at hs'
        obtain ⟨rfl, htail⟩ := List.cons.inj hs'
        refine ⟨ho.size, ho.limits, ho.global, top, rest, scopes, more, hs, htail, ?_, ?_⟩
        · simp only [List.length_cons] at hcount ⊢
          omega
        · intro hcontra
          omega

end Opens

variable (h : Heap)

lemma opens_root (r : ObjectRef) : Opens 0 h (h.root r) := by
  obtain ⟨top, rest, hs⟩ := h.exists_scopes
  have hfields : (h.root r).limits = h.limits ∧ (h.root r).global = h.global ∧
      (h.root r).overflow = h.overflow := by
    unfold root
    split <;> exact ⟨rfl, rfl, rfl⟩
  obtain ⟨hlimits, hglobal, hoverflow⟩ := hfields
  exact ⟨by simp, hlimits, hglobal, top, rest, [], [r], hs, h.scopes_root r top rest hs,
    by simp [hoverflow], fun _ => rfl⟩

lemma opens_pushScope (hs : h.Saturated) : Opens 1 h h.pushScope := by
  obtain ⟨top, rest, htop⟩ := h.exists_scopes
  unfold pushScope
  by_cases hfull : h.limits.maxScopeDepth ≤ h.pushed.length
  · rw [if_pos hfull]
    exact ⟨Nat.le_refl _, rfl, rfl, top, rest, [], [], htop, htop, by simp; omega, fun _ => rfl⟩
  · rw [if_neg hfull]
    refine ⟨Nat.le_refl _, rfl, rfl, top, rest, [[]], [], htop, ?_, by simp, fun hpos => ?_⟩
    · rw [scopes_of_pushed _ [] h.pushed rfl, List.nil_append]
      exact congrArg _ htop
    · exact absurd (hs hpos) hfull

lemma saturated_pushScope (hs : h.Saturated) : h.pushScope.Saturated := by
  unfold pushScope
  split
  · rename_i hfull
    exact fun _ => hfull
  · rename_i hroom
    exact fun hpos => absurd (hs hpos) hroom

lemma global_popScope : h.popScope.2.global = h.global := by
  unfold popScope
  split
  · rfl
  · split <;> rfl

lemma saturated_popScope (hs : h.Saturated) : h.popScope.2.Saturated := by
  unfold popScope
  split
  · rename_i hpos
    exact fun _ => hs hpos
  · rename_i hzero
    split <;> exact fun hpos => absurd hpos hzero

end HostBoundary.Heap
