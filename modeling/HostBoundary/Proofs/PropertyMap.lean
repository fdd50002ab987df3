import HostBoundary.Proofs.ClassRegistration
import HostBoundary.Proofs.Passages

namespace HostBoundary

variable {σ τ : Type} {host : Host σ} {diary : σ → List (World Unit)} {elements : Array Value}

namespace Engine

-- What a read of a property comes to, by whatever value the key is named: a value and nothing else,
-- or the run of a getter.
def Reads (host : Host σ) (w : World σ) (e : EngineId) (r : ObjectRef) (key : Key) (v : Value) : Prop :=
  ∀ name, (w.engine e).heap.keyOf name = key → getProperty host e r name w = (.ok v, w)

def Runs (host : Host σ) (w : World σ) (e : EngineId) (r : ObjectRef) (key : Key)
    (getter : CallbackData) : Prop :=
  ∀ name, (w.engine e).heap.keyOf name = key → getProperty host e r name w =
    (do outcome e (← dispatch host e getter ⟨.get, .object r, []⟩)) w

-- In both worlds a read comes to the same.
def ReadsAlike (host : Host σ) (w w' : World σ) (e : EngineId) (r : ObjectRef) (key : Key) : Prop :=
  (∃ v, Reads host w e r key v ∧ Reads host w' e r key v) ∨
    ∃ getter, Runs host w e r key getter ∧ Runs host w' e r key getter

end Engine

-- What a write does about the first property that it finds.
def PropertySlot.plan : PropertySlot → Heap.StorePlan
  | .data _ => .define
  | .accessor _ (some setter) => .setter setter
  | .accessor _ none => .readOnly

namespace Heap

variable {h h' : Heap} {r : ObjectRef} {o : HeapObject} {key : Key}

def Found.answer : Found → Except CallbackData Value
  | .value v => .ok v
  | .missing => .ok .undefined
  | .getter data => .error data

def chainFrom (h : Heap) : Nat → Option ObjectRef → List HeapObject
  | 0, _ | _, none => []
  | steps + 1, some r =>
    match h.object? r with
    | none => []
    | some o => o :: h.chainFrom steps o.prototype

def chain (h : Heap) (r : ObjectRef) : List HeapObject := h.chainFrom maxPrototypes (some r)

lemma chainFrom_of_object (ho : h.object? r = some o) (steps : Nat) :
    h.chainFrom (steps + 1) (some r) = o :: h.chainFrom steps o.prototype := by
  rw [chainFrom, ho]

lemma lookupFrom_eq (h : Heap) (key : Key) (steps : Nat) (start : Option ObjectRef) :
    h.lookupFrom key steps start =
      ((h.chainFrom steps start).findSome? (h.foundIn · key)).getD .missing := by
  induction steps generalizing start with
  | zero => rfl
  | succ steps ih =>
    cases start with
    | none => rfl
    | some r =>
      rw [lookupFrom, chainFrom]
      cases h.object? r with
      | none => rfl
      | some o =>
        cases hfound : h.foundIn o key with
        | none => simp only [List.findSome?_cons, hfound, ih]
        | some found => simp only [List.findSome?_cons, hfound, Option.getD_some]

-- No accessor is found under the key: the first object of the chain that has a property there has
-- data in it.
def Unguarded (h : Heap) (r : ObjectRef) (key : Key) : Prop :=
  ∀ p, (h.chain r).findSome? (·.own? key) = some p → ∃ v, p.slot = .data v

lemma storePlanFrom_eq (h : Heap) (key : Key) (steps : Nat) (start : Option ObjectRef) :
    h.storePlanFrom key steps start =
      (((h.chainFrom steps start).findSome? (·.own? key)).map (·.slot.plan)).getD .define := by
  induction steps generalizing start with
  | zero => rfl
  | succ steps ih =>
    cases start with
    | none => rfl
    | some r =>
      rw [storePlanFrom, chainFrom]
      cases h.object? r with
      | none => rfl
      | some o =>
        cases hown : o.own? key with
        | none => simp only [List.findSome?_cons, hown, ih]
        | some p =>
          obtain ⟨name, slot, enumerable⟩ := p
          simp only [List.findSome?_cons, hown, Option.map_some, Option.getD_some]
          cases slot with
          | data => rfl
          | accessor getter setter => cases setter <;> rfl

lemma PropertySlot.plan_eq_define_iff (slot : PropertySlot) :
    slot.plan = .define ↔ ∃ v, slot = .data v := by
  cases slot with
  | data v => simp [PropertySlot.plan]
  | accessor getter setter => cases setter <;> simp [PropertySlot.plan]

-- A write gives the object a property of its own unless an accessor is found.
lemma storePlan_eq_define_iff : h.storePlan r key = .define ↔ h.Unguarded r key := by
  rw [storePlan, storePlanFrom_eq, Unguarded, chain]
  cases (h.chainFrom maxPrototypes (some r)).findSome? (·.own? key) with
  | none => simp
  | some p => simp [PropertySlot.plan_eq_define_iff]

-- Reads go the same way in heaps whose objects answer the same under the key.
lemma lookupFrom_congr
    (hsame : ∀ s, (h'.object? s).map (fun o => (h'.foundIn o key, o.prototype)) =
      (h.object? s).map fun o => (h.foundIn o key, o.prototype))
    (steps : Nat) (start : Option ObjectRef) :
    h'.lookupFrom key steps start = h.lookupFrom key steps start := by
  induction steps generalizing start with
  | zero => rfl
  | succ steps ih =>
    cases start with
    | none => rfl
    | some r =>
      have hr := hsame r
      rw [lookupFrom, lookupFrom]
      cases ho : h.object? r with
      | none =>
        rw [ho, Option.map_none, Option.map_eq_none_iff] at hr
        rw [hr]
      | some o =>
        rw [ho, Option.map_some, Option.map_eq_some_iff] at hr
        obtain ⟨o', ho', heq⟩ := hr
        obtain ⟨hfound, hprototype⟩ := Prod.mk.inj heq
        simp only [ho', hfound, hprototype, ih]

lemma elementBytes_eq (h : Heap) (view : TypedArrayView) (i : Nat) :
    h.elementBytes view i = (h.contents? view.buffer).bind fun bytes =>
      if view.byteOffset + i * view.kind.size + view.kind.size ≤ bytes.size then
        some (bytes.extract (view.byteOffset + i * view.kind.size)
          (view.byteOffset + i * view.kind.size + view.kind.size)).toList
      else none := by
  unfold elementBytes contents?
  cases h.body? view.buffer with
  | none => rfl
  | some body => cases body <;> rfl

lemma foundIn_congr (hc : ∀ s, h'.contents? s = h.contents? s) (o : HeapObject) (key : Key) :
    h'.foundIn o key = h.foundIn o key := by
  have hcomputed : h'.computed? o key = h.computed? o key := by
    unfold computed?
    split <;> try rfl
    rw [elementBytes_eq, elementBytes_eq, hc]
  rw [foundIn, foundIn, hcomputed]

section Objects

variable (ho : h'.objects = h.objects)

include ho

lemma object?_of_objects (r : ObjectRef) : h'.object? r = h.object? r := by
  rw [object?, ho, object?]

lemma displayObject_of_objects (depth : Nat) (r : ObjectRef) :
    h'.displayObject depth r = h.displayObject depth r := by
  induction depth generalizing r with
  | zero => unfold displayObject; simp only [object?_of_objects ho]
  | succ depth ih => unfold displayObject; simp only [object?_of_objects ho, ih]

lemma keyOf_of_objects (key : Value) : h'.keyOf key = h.keyOf key := by
  cases key <;> simp only [keyOf, display, displayObject_of_objects ho]

lemma lookup_of_objects (r : ObjectRef) (key : Key) : h'.lookup r key = h.lookup r key := by
  refine lookupFrom_congr (fun s => ?_) _ _
  rw [object?_of_objects ho]
  refine Option.map_congr fun o _ => congrArg (·, o.prototype) (foundIn_congr (fun s => ?_) o key)
  rw [contents?, contents?, body?, body?, object?_of_objects ho]

lemma storePlan_of_objects (r : ObjectRef) (key : Key) : h'.storePlan r key = h.storePlan r key := by
  unfold storePlan
  generalize maxPrototypes = steps
  generalize some r = start
  induction steps generalizing start with
  | zero => rfl
  | succ steps ih =>
    cases start with
    | none => rfl
    | some r => simp only [storePlanFrom, object?_of_objects ho, ih]

end Objects

end Heap

-- Objects that hold whatever is stored in them. Buffers and views of them have properties that
-- cannot be set.
def Body.Storable : Body → Prop
  | .arrayBuffer _ | .typedArray _ | .dataView _ => False
  | _ => True

lemma Body.Storable.of_reserves {body : Body} {key : Key} (hs : body.Storable)
    (hr : body.reserves key = true) :
    ∃ elements, body = .array elements ∧ ((∃ i, key = .index i) ∨ key = .name "length") := by
  unfold reserves at hr
  split at hr
  · exact ⟨_, rfl, .inl ⟨_, rfl⟩⟩
  · exact ⟨_, rfl, .inr rfl⟩
  · exact hs.elim
  · cases hr

def Binary64.Whole (x : Binary64) (n : Nat) : Prop := x.isFinite = true ∧ x.scaled = (n : Int) * one

lemma Binary64.whole_iff (x : Binary64) (n : Nat) :
    x.Whole n ↔ x.isIntegral = true ∧ x.trunc = n := by
  constructor
  · rintro ⟨hfinite, hscaled⟩
    exact trunc_of_scaled hfinite hscaled
  · rintro ⟨hintegral, htrunc⟩
    obtain ⟨hfinite, hscaled⟩ := x.isIntegral_iff.mp hintegral
    exact ⟨hfinite, by rw [hscaled, htrunc]⟩

namespace Heap

variable {h h' : Heap} {r : ObjectRef} {o : HeapObject} {key : Key}

lemma lengthOf?_eq_some_iff (h : Heap) (x : Binary64) (n : Nat) :
    h.lengthOf? x = some n ↔ x.Whole n ∧ n ≤ h.limits.maxArrayLength := by
  rw [x.whole_iff, lengthOf?]
  split
  · rename_i hx
    simp only [Bool.and_eq_true, decide_eq_true_eq] at hx
    rw [Option.some.injEq]
    constructor
    · rintro rfl
      exact ⟨⟨hx.1.1, by omega⟩, by omega⟩
    · rintro ⟨⟨-, htrunc⟩, -⟩
      omega
  · rename_i hx
    simp only [Bool.and_eq_true, decide_eq_true_eq] at hx
    simp only [reduceCtorEq, false_iff]
    rintro ⟨⟨hintegral, htrunc⟩, hn⟩
    exact hx ⟨⟨hintegral, by omega⟩, by omega⟩

def Refuses (h : Heap) (o : HeapObject) (key : Key) (v : Value) : Prop :=
  ∃ elements, o.body = .array elements ∧
    ((∃ i, key = .index i ∧ h.limits.maxArrayLength ≤ i.toNat) ∨
      key = .name "length" ∧ ¬ ∃ n, v.toNumber.Whole n ∧ n ≤ h.limits.maxArrayLength)

-- A store leaves its mark under another key: the length of an array goes with its elements, and
-- elements go if it is made shorter.
def Disturbs (o : HeapObject) (key : Key) (v : Value) (other : Key) : Prop :=
  ∃ elements, o.body = .array elements ∧
    ((∃ i, key = .index i) ∧ other = .name "length" ∨
      key = .name "length" ∧ ∃ n j, v.toNumber.Whole n ∧ other = .index j ∧ n ≤ j.toNat ∧
        j.toNat < elements.size)

def Yields (o : HeapObject) (key : Key) (v x : Value) : Prop :=
  ((∃ elements, o.body = .array elements) ∧ key = .name "length" ∧
      ∃ n, v.toNumber.Whole n ∧ x = lengthValue n) ∨
    ¬ ((∃ elements, o.body = .array elements) ∧ key = .name "length") ∧ x = v

lemma lookup_of_tidy (ho : h.object? r = some o) (ht : o.Tidy) (hne : o.body ≠ .plain) (key : Key) :
    h.lookup r key = (h.foundIn o key).getD .missing := by
  rw [lookup, maxPrototypes, lookupFrom, ho]
  cases hfound : h.foundIn o key with
  | none => simp only [hfound, ht.prototype hne, lookupFrom, Option.getD_none]
  | some found => simp only [hfound, Option.getD_some]

lemma computed?_of_storable (hs : o.body.Storable) (hr : o.body.reserves key = false) :
    h.computed? o key = none := by
  unfold computed?
  split <;> simp_all [Body.Storable, Body.reserves]

section Arrays

variable {elements : Array Value}

lemma answer_index (ho : h.object? r = some o) (ht : o.Tidy) (hb : o.body = .array elements)
    (j : UInt32) : (h.lookup r (.index j)).answer = .ok (elements[j.toNat]?.getD .undefined) := by
  have hown : o.own? (.index j) = none := ht.reserved _ (by rw [hb]; rfl)
  rw [lookup_of_tidy ho ht (by simp [hb]), foundIn]
  cases hj : elements[j.toNat]? with
  | none => simp only [computed?, hb, hj, hown]; rfl
  | some v => simp only [computed?, hb, hj]; rfl

lemma answer_length (ho : h.object? r = some o) (ht : o.Tidy) (hb : o.body = .array elements) :
    (h.lookup r (.name "length")).answer = .ok (lengthValue elements.size) := by
  rw [lookup_of_tidy ho ht (by simp [hb]), foundIn]
  simp only [computed?, hb]
  rfl

lemma answer_name (ho : h.object? r = some o) (ht : o.Tidy) (hb : o.body = .array elements)
    {elements' : Array Value} (ho' : h'.object? r = some { o with body := .array elements' })
    {name : String} (hname : name ≠ "length") :
    (h'.lookup r (.name name)).answer = (h.lookup r (.name name)).answer := by
  have ht' := ht.withElements hb elements'
  rw [lookup_of_tidy ho ht (by simp [hb]), lookup_of_tidy ho' ht' (by simp), foundIn, foundIn]
  have hfree : ∀ elements, (Body.array elements).reserves (.name name) = false := by
    simp [Body.reserves, hname]
  have hbefore : h.computed? o (.name name) = none :=
    computed?_of_storable (by rw [hb]; trivial) (by rw [hb]; exact hfree elements)
  have hafter : h'.computed? { o with body := .array elements' } (.name name) = none :=
    computed?_of_storable trivial (hfree elements')
  rw [hbefore, hafter]
  rfl

lemma getElem?_resize (elements : Array Value) (length j : Nat) :
    (resize elements length)[j]? =
      if j < length then some (elements[j]?.getD .undefined) else none := by
  rw [resize, Array.getElem?_append, Array.getElem?_replicate]
  simp only [Array.take_eq_extract, Array.size_extract]
  by_cases hj : j < elements.size
  · by_cases hl : j < length
    · rw [if_pos (by omega), if_pos hl, Array.getElem?_extract]
      simp [hj, hl]
    · simp [hl]
      omega
  · by_cases hl : j < length
    · rw [if_neg (by omega), if_pos hl, if_pos (by omega), Array.getElem?_eq_none (by omega)]
      rfl
    · rw [if_neg (by omega), if_neg hl, if_neg (by omega)]

end Arrays

-- The elements of an array with one that was written, and undefined ones before it if it is longer now.
def written (elements : Array Value) (i : Nat) (v : Value) : Array Value :=
  (if elements.size ≤ i then resize elements (i + 1) else elements).setIfInBounds i v

lemma getElem?_written_self (elements : Array Value) (i : Nat) (v : Value) :
    (written elements i v)[i]? = some v := by
  refine Array.getElem?_setIfInBounds_self_of_lt ?_
  split
  · rw [size_resize]
    exact Nat.lt_succ_self _
  · omega

lemma getElem?_written_ne (elements : Array Value) {i j : Nat} (v : Value) (hne : j ≠ i) :
    (written elements i v)[j]? = if j < max elements.size i then some (elements[j]?.getD .undefined)
      else none := by
  rw [written, Array.getElem?_setIfInBounds_ne hne.symm]
  split
  · rw [getElem?_resize]
    split
    · rw [if_pos (by omega)]
    · rw [if_neg (by omega)]
  · split
    · rename_i hj
      rw [Array.getElem?_eq_getElem (by omega), Option.getD_some]
    · rw [Array.getElem?_eq_none (by omega)]

-- A value was stored: what is read there now, and that all else is as it was.
structure Assigned (h : Heap) (r : ObjectRef) (o : HeapObject) (key : Key) (v : Value) (h' : Heap) :
    Prop where
  alive : h'.isAlive r = true
  read : ∃ x, Yields o key v x ∧ (h'.lookup r key).answer = .ok x
  apart : ∀ other, other ≠ key → ¬ Disturbs o key v other →
    (h'.lookup r other).answer = (h.lookup r other).answer
  others : ∀ s, s ≠ r → h'.object? s = h.object? s
  rest : h' = { h with objects := h'.objects }

section Assigned

variable (ho : h.object? r = some o) (ht : o.Tidy)

include ho

lemma object?_modifyObject_self (f : HeapObject → HeapObject) :
    (h.modifyObject r f).object? r = some (f o) := by
  rw [object?_modifyObject, if_pos rfl, ho]
  rfl

include ht

lemma assigned_elements (hb : o.body = .array elements)
    (hkey : (∃ i, key = .index i) ∨ key = .name "length") (v x : Value) (elements' : Array Value)
    (hyields : Yields o key v x)
    (hindex : ∀ i, key = .index i → elements'[i.toNat]? = some x)
    (hlength : key = .name "length" → x = lengthValue elements'.size)
    (hapart : ∀ j : UInt32, .index j ≠ key → ¬ Disturbs o key v (.index j) →
      elements'[j.toNat]?.getD .undefined = elements[j.toNat]?.getD .undefined) :
    h.Assigned r o key v (h.modifyObject r ({ · with body := .array elements' })) := by
  have ho' := object?_modifyObject_self ho ({ · with body := .array elements' })
  have ht' := ht.withElements hb elements'
  refine ⟨isAlive_of_object? _ r _ ho', ⟨x, hyields, ?_⟩, fun other hne hcalm => ?_, fun s hs => ?_, rfl⟩
  · rcases hkey with ⟨i, rfl⟩ | rfl
    · rw [answer_index ho' ht' rfl, hindex i rfl]
      rfl
    · rw [answer_length ho' ht' rfl, hlength rfl]
  · cases other with
    | index j => rw [answer_index ho' ht' rfl, answer_index ho ht hb, hapart j hne hcalm]
    | name name =>
      refine answer_name ho ht hb ho' ?_
      rintro rfl
      rcases hkey with hindex | rfl
      · exact hcalm ⟨elements, hb, .inl ⟨hindex, rfl⟩⟩
      · exact hne rfl
  · rw [object?_modifyObject, if_neg hs]

omit ht in
lemma assigned_define (hs : o.body.Storable) (hr : o.body.reserves key = false) (v : Value) :
    h.Assigned r o key v (h.modifyObject r (·.define key v true)) := by
  have ho' := object?_modifyObject_self ho (·.define key v true)
  refine ⟨isAlive_of_object? _ r _ ho', ⟨v, .inr ⟨?_, rfl⟩, ?_⟩, fun other hne _ => ?_,
    fun s hs => ?_, rfl⟩
  · rintro ⟨⟨elements, hb⟩, rfl⟩
    rw [hb] at hr
    exact absurd hr (by simp [Body.reserves])
  · obtain ⟨shown, hown⟩ := HeapObject.own?_define_self key v true o
    have hcomputed : (h.modifyObject r (·.define key v true)).computed? (o.define key v true) key =
        none := computed?_of_storable hs hr
    have hfound : (h.modifyObject r (·.define key v true)).foundIn (o.define key v true) key =
        some (.value v) := by
      simp only [foundIn, hcomputed, hown, Option.map_some]
    rw [lookup_of_foundIn ho' hfound]
    rfl
  · have hbody : ∀ s, (h.modifyObject r (·.define key v true)).body? s = h.body? s := by
      intro s
      rw [body?, body?, object?_modifyObject]
      split
      · rw [Option.map_map]
        rfl
      · rfl
    have hfound : ∀ x, (h.modifyObject r (·.define key v true)).foundIn x other =
        h.foundIn x other :=
      fun x => foundIn_congr (fun s => by rw [contents?, contents?, hbody]) x other
    have hown : h.foundIn (o.define key v true) other = h.foundIn o other := by
      rw [foundIn, foundIn, HeapObject.own?_define_ne key other v true o hne]
      rfl
    refine congrArg Found.answer (lookupFrom_congr (fun s => ?_) _ _)
    by_cases hs : s = r
    · subst hs
      rw [ho', ho, Option.map_some, Option.map_some, hfound, hown]
      rfl
    · rw [object?_modifyObject, if_neg hs]
      exact Option.map_congr fun x _ => by rw [hfound]
  · rw [object?_modifyObject, if_neg hs]

omit ht in
lemma storeOwn_of_unreserved (hs : o.body.Storable) (hr : o.body.reserves key = false) (v : Value) :
    h.storeOwn r key v = some (h.modifyObject r (·.define key v true)) := by
  unfold storeOwn
  rw [ho]
  split
  · rename_i hnone
    cases hnone
  · rename_i object hsome
    obtain rfl := Option.some.inj hsome
    split <;> simp_all [Body.Storable, Body.reserves]

lemma storeOwn_index (hb : o.body = .array elements) (i : UInt32) (v : Value) :
    (h.Refuses o (.index i) v ∧ h.storeOwn r (.index i) v = none) ∨
      ¬ h.Refuses o (.index i) v ∧
        ∃ h', h.storeOwn r (.index i) v = some h' ∧ h.Assigned r o (.index i) v h' := by
  by_cases hlimit : h.limits.maxArrayLength ≤ i.toNat
  · exact .inl ⟨⟨elements, hb, .inl ⟨i, rfl, hlimit⟩⟩, by simp only [storeOwn, ho, hb, if_pos hlimit]⟩
  · have hstore : h.storeOwn r (.index i) v = some (h.modifyObject r
        ({ · with body := .array (written elements i.toNat v) })) := by
      simp only [storeOwn, ho, hb, if_neg hlimit]
      rfl
    refine .inr ⟨?_, _, hstore, ?_⟩
    · rintro ⟨-, -, ⟨j, hj, hle⟩ | ⟨hname, -⟩⟩
      · exact hlimit (Key.index.inj hj ▸ hle)
      · cases hname
    · refine assigned_elements ho ht hb (.inl ⟨i, rfl⟩) v v _
        (.inr ⟨fun hand => absurd hand.2 (by simp), rfl⟩) (fun j hj => ?_)
        (fun hname => absurd hname (by simp)) fun j hne _ => ?_
      · rw [← Key.index.inj hj, getElem?_written_self]
      · have hne' : j.toNat ≠ i.toNat := fun heq => hne (congrArg Key.index (UInt32.toNat_inj.mp heq))
        rw [getElem?_written_ne elements v hne']
        split
        · rfl
        · rename_i hafter
          rw [Array.getElem?_eq_none (by omega)]

lemma storeOwn_length (hb : o.body = .array elements) (v : Value) :
    (h.Refuses o (.name "length") v ∧ h.storeOwn r (.name "length") v = none) ∨
      ¬ h.Refuses o (.name "length") v ∧
        ∃ h', h.storeOwn r (.name "length") v = some h' ∧ h.Assigned r o (.name "length") v h' := by
  cases hlength : h.lengthOf? v.toNumber with
  | none =>
    refine .inl ⟨⟨elements, hb, .inr ⟨rfl, ?_⟩⟩, by simp only [storeOwn, ho, hb, hlength, Option.map_none]⟩
    rintro ⟨n, hn⟩
    exact absurd (hlength.symm.trans ((h.lengthOf?_eq_some_iff _ n).mpr hn)) (by simp)
  | some n =>
    obtain ⟨hwhole, hlimit⟩ := (h.lengthOf?_eq_some_iff _ n).mp hlength
    have hstore : h.storeOwn r (.name "length") v =
        some (h.modifyObject r ({ · with body := .array (resize elements n) })) := by
      simp only [storeOwn, ho, hb, hlength, Option.map_some]
    refine .inr ⟨?_, _, hstore, ?_⟩
    · rintro ⟨-, -, ⟨j, hj, -⟩ | ⟨-, hnone⟩⟩
      · cases hj
      · exact hnone ⟨n, hwhole, hlimit⟩
    · refine assigned_elements ho ht hb (.inr rfl) v (lengthValue n) _
        (.inl ⟨⟨elements, hb⟩, rfl, n, hwhole, rfl⟩) (fun i hi => absurd hi (by simp))
        (fun _ => by rw [size_resize]) fun j _ hcalm => ?_
      rw [getElem?_resize]
      split
      · rfl
      · rename_i hj
        have hgone : ¬ j.toNat < elements.size := fun hin =>
          hcalm ⟨elements, hb, .inr ⟨rfl, n, j, hwhole, rfl, Nat.not_lt.mp hj, hin⟩⟩
        rw [Array.getElem?_eq_none (Nat.not_lt.mp hgone)]

lemma storeOwn_cases (hs : o.body.Storable) (key : Key) (v : Value) :
    (h.Refuses o key v ∧ h.storeOwn r key v = none) ∨
      ¬ h.Refuses o key v ∧ ∃ h', h.storeOwn r key v = some h' ∧ h.Assigned r o key v h' := by
  cases hr : o.body.reserves key with
  | true =>
    obtain ⟨elements, hb, ⟨i, rfl⟩ | rfl⟩ := hs.of_reserves hr
    · exact storeOwn_index ho ht hb i v
    · exact storeOwn_length ho ht hb v
  | false =>
    refine .inr ⟨?_, _, storeOwn_of_unreserved ho hs hr v, assigned_define ho hs hr v⟩
    rintro ⟨elements, hb, ⟨i, rfl, -⟩ | ⟨rfl, -⟩⟩ <;>
      exact absurd (hb ▸ hr) (by simp [Body.reserves])

end Assigned

-- One object is new and kept by the innermost scope. All else is as it was.
structure Gains (h : Heap) (r : ObjectRef) (o : HeapObject) (h' : Heap) : Prop where
  fresh : h.object? r = none
  made : h'.object? r = some o
  others : ∀ s, s ≠ r → h'.object? s = h.object? s
  rooted : ∃ top rest, h.scopes = top :: rest ∧ h'.scopes = (r :: top) :: rest
  rest : h' = { h with
    objects := h'.objects, base := h'.base, pushed := h'.pushed, allocations := h.allocations + 1 }

lemma gains_allocate {h : Heap} (hwf : h.WellFormed) (hroom : h.Roomy) (o : HeapObject) :
    h.Gains (h.allocate o).1 o (h.allocate o).2 := by
  obtain ⟨-, hself, hfresh⟩ := adds_allocate hwf hroom o
  refine ⟨hfresh, hself, fun s hs => ?_, ?_, ?_⟩
  · rw [object?, allocate_objects]
    exact h.objects.get?_insert_ne o s hs
  · cases hp : h.pushed with
    | nil => exact ⟨h.base, [], by simp [scopes, hp], by simp [scopes, allocate, root, hp]⟩
    | cons scope outer =>
      exact ⟨scope, outer ++ [h.base], by simp [scopes, hp], by simp [scopes, allocate, root, hp]⟩
  · simp only [allocate, root]
    split <;> rfl

end Heap

namespace Engine

variable {w w' : World τ} {handlers : Host τ} {e : EngineId} {r : ObjectRef} {key : Key}
  (halive : (w.engine e).heap.isAlive r = true)

include halive

lemma reads_of_answer {v : Value} (hv : ((w.engine e).heap.lookup r key).answer = .ok v) :
    Reads handlers w e r key v := by
  intro name hname
  rw [getProperty_of_alive halive, hname]
  cases hfound : (w.engine e).heap.lookup r key with
  | value | missing =>
    rw [hfound] at hv
    rw [← Except.ok.inj hv]
    rfl
  | getter data =>
    rw [hfound] at hv
    exact absurd hv (by simp [Heap.Found.answer])

lemma runs_of_answer {getter : CallbackData}
    (hv : ((w.engine e).heap.lookup r key).answer = .error getter) : Runs handlers w e r key getter := by
  intro name hname
  rw [getProperty_of_alive halive, hname]
  cases hfound : (w.engine e).heap.lookup r key with
  | value x | missing =>
    rw [hfound] at hv
    exact absurd hv (by simp [Heap.Found.answer])
  | getter data =>
    rw [hfound] at hv
    rw [← Except.error.inj hv]

lemma readsAlike_of_answer (halive' : (w'.engine e).heap.isAlive r = true)
    (hsame : ((w'.engine e).heap.lookup r key).answer = ((w.engine e).heap.lookup r key).answer) :
    ReadsAlike handlers w w' e r key := by
  cases hv : ((w.engine e).heap.lookup r key).answer with
  | ok v => exact .inl ⟨v, reads_of_answer halive hv, reads_of_answer halive' (hsame.trans hv)⟩
  | error getter => exact .inr ⟨getter, runs_of_answer halive hv, runs_of_answer halive' (hsame.trans hv)⟩

end Engine

-- A store fails exactly if an array cannot have the index or the length, and otherwise it is what
-- is read under the key afterwards, and nothing else changes.
theorem property_stores_behave_as_map (hh : host.Heedful diary nowhere) (w : World σ)
    (hw : w.Charted diary nowhere host) (handlers : Host τ) (m : World τ)
    (hm : m.seen ∈ w.moments diary) (e : EngineId) (he : m.HasEngine e)
    (hroom : (m.engine e).heap.Roomy) (r : ObjectRef) (o : HeapObject)
    (ho : (m.engine e).heap.object? r = some o) (hs : o.body.Storable) (name v : Value) (key : Key)
    (hname : (m.engine e).heap.keyOf name = key) (hfree : (m.engine e).heap.Unguarded r key) :
    ∃ result m', Engine.setProperty handlers e r name v m = (result, m') ∧
      m' = m.modifyEngine e ({ · with heap := (m'.engine e).heap }) ∧
      ((∃ thrown, result = .error thrown) ↔ (m.engine e).heap.Refuses o key v) ∧
      (∀ thrown, result = .error thrown → ∃ x, thrown.value = .object x ∧
        (m.engine e).heap.Gains x (Heap.errorObject .rangeError "Invalid array length")
          (m'.engine e).heap) ∧
      (result = .ok () →
        (∃ x, Heap.Yields o key v x ∧ Engine.Reads handlers m' e r key x) ∧
        (∀ other, other ≠ key → ¬ Heap.Disturbs o key v other →
          Engine.ReadsAlike handlers m m' e r other) ∧
        (∀ s, s ≠ r → (m'.engine e).heap.object? s = (m.engine e).heap.object? s) ∧
        (m'.engine e).heap =
          { (m.engine e).heap with objects := (m'.engine e).heap.objects }) := by
  obtain ⟨hwf, hshape⟩ := hw.shapely hh hm he hroom
  replace hwf : (m.engine e).heap.WellFormed := hwf
  have ht : o.Tidy := hshape.tidy r o ho
  have halive := Heap.isAlive_of_object? _ r o ho
  have hheap : ∀ h, ((m.modifyEngine e ({ · with heap := h })).engine e).heap = h := fun h => by
    rw [World.heap_modifyEngine he]
  subst hname
  have hplan := Heap.storePlan_eq_define_iff.mpr hfree
  rcases Heap.storeOwn_cases ho ht hs _ v with ⟨hrefuses, hnone⟩ | ⟨haccepts, h', hsome, hassigned⟩
  · refine ⟨_, _, (Engine.setProperty_of_refused halive hplan hnone).trans rfl, by rw [hheap], iff_of_true ⟨_, rfl⟩ hrefuses, fun thrown heq => ?_,
      fun hok => absurd hok (by simp)⟩
    rw [hheap, ← Except.error.inj heq]
    exact ⟨_, rfl, Heap.gains_allocate hwf hroom _⟩
  · have hnow := hheap h'
    refine ⟨_, _, Engine.setProperty_of_stored halive hplan hsome, by rw [hnow], iff_of_false (by simp) haccepts,
      fun _ herror => absurd herror (by simp), fun _ => ?_⟩
    generalize m.modifyEngine e ({ · with heap := h' }) = m' at hnow
    subst hnow
    obtain ⟨x, hyields, hread⟩ := hassigned.read
    exact ⟨⟨x, hyields, Engine.reads_of_answer hassigned.alive hread⟩, fun other hne hcalm =>
      Engine.readsAlike_of_answer halive hassigned.alive (hassigned.apart other hne hcalm),
      hassigned.others, hassigned.rest⟩

def listed : World Unit :=
  World.after Host.inert { host := () } [.newEngine { maxArrayLength := 4 }, .attach ⟨0⟩,
    .operate ⟨0⟩ (.newArray 2)]

lemma listed_array : (listed.engine ⟨0⟩).heap.object? (.first 1) =
    some (.ofBody (.array #[.undefined, .undefined])) := by
  cbv

theorem property_stores_behave_as_map_listed :
    (∃ thrown x m', Engine.setProperty Host.inert ⟨0⟩ (.first 1) (.int 4) (.boolean true) listed =
        (.error thrown, m') ∧ thrown.value = .object x ∧
      (listed.engine ⟨0⟩).heap.Gains x (Heap.errorObject .rangeError "Invalid array length")
        (m'.engine ⟨0⟩).heap) ∧
    ∃ m', Engine.setProperty Host.inert ⟨0⟩ (.first 1) (.int 3) (.boolean true) listed =
        (.ok (), m') ∧
      (∃ x, Heap.Yields (.ofBody (.array #[.undefined, .undefined])) (.index 3) (.boolean true) x ∧
        Engine.Reads Host.inert m' ⟨0⟩ (.first 1) (.index 3) x) ∧
      Engine.ReadsAlike Host.inert listed m' ⟨0⟩ (.first 1) (.index 0) := by
  have hroom : (listed.engine ⟨0⟩).heap.Roomy := show _ < _ by decide +kernel
  have hlimit : (listed.engine ⟨0⟩).heap.limits.maxArrayLength = 4 := by decide +kernel
  have hat := fun (name : Value) (i : UInt32) => property_stores_behave_as_map Host.inert_heedful listed
    (World.charted_inert () _) Host.inert listed
    (by simp [World.moments]) ⟨0⟩ (by decide +kernel) hroom (.first 1) _ listed_array trivial name
    (.boolean true) (.index i)
  obtain ⟨_, m₁, hset₁, -, hfails, hthrows, -⟩ := hat (.int 4) 4 (by decide +kernel)
    (Heap.storePlan_eq_define_iff.mp (by decide +kernel))
  obtain ⟨result, m₂, hset₂, -, hfails₂, -, hdone⟩ := hat (.int 3) 3 (by decide +kernel)
    (Heap.storePlan_eq_define_iff.mp (by decide +kernel))
  obtain ⟨thrown, rfl⟩ := hfails.mpr ⟨_, rfl, .inl ⟨4, rfl, by rw [hlimit]; decide⟩⟩
  obtain ⟨x, hx, hgains⟩ := hthrows thrown rfl
  refine ⟨⟨thrown, x, m₁, hset₁, hx, hgains⟩, m₂, ?_⟩
  cases result with
  | error thrown =>
    obtain ⟨elements, -, ⟨j, hj, hle⟩ | ⟨hlength, -⟩⟩ := hfails₂.mp ⟨thrown, rfl⟩
    · rw [hlimit, ← Key.index.inj hj] at hle
      exact absurd hle (by decide)
    · cases hlength
  | ok _ =>
    obtain ⟨hread, hapart, -⟩ := hdone rfl
    refine ⟨hset₂, hread, hapart (.index 0) (by decide) ?_⟩
    rintro ⟨elements, -, ⟨-, hlength⟩ | ⟨hlength, -⟩⟩ <;> cases hlength

end HostBoundary
