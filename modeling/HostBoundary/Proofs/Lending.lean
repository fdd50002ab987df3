import HostBoundary.Proofs.Evolution
import HostBoundary.Proofs.Steady

namespace HostBoundary

open Act (Orderly Meets Runs any)

variable {σ α : Type} {host : Host σ} {n : EnvironmentId} {e : EngineId} {pre : Heap → Prop}
  {h h' : Heap} {r : ObjectRef} {post : α → Heap → Prop} {f : Heap → α × Heap}

namespace Heap

def Pinned (h : Heap) (r : ObjectRef) : Prop := h.Rooted r ∨ h.global = some r

lemma Innermost.pinned (hr : h.Innermost r) : h.Pinned r :=
  .inl hr.rooted

lemma Pinned.opens {k : Nat} (hp : h.Pinned r) (ho : Opens k h h') : h'.Pinned r := by
  rcases hp with hr | hg
  · exact .inl (ho.rooted hr)
  · exact .inr (ho.global.trans hg)

lemma Sound.live_of_pinned (hs : h.Sound) (hp : h.Pinned r) : h.Live r := by
  rcases hp with hr | hg
  · exact hs.live_of_rooted hr
  · exact fun hroom => (hs.intact hroom).global r hg

-- An object all of whose properties are data, and that inherits none.
def Unhooked (h : Heap) (r : ObjectRef) : Prop :=
  ∀ o, h.object? r = some o → o.prototype = none ∧ ∀ p ∈ o.properties, ∃ v, p.slot = .data v

lemma Unhooked.storePlan (hu : h.Unhooked r) (key : Key) : h.storePlan r key = .define := by
  simp only [Heap.storePlan, maxPrototypes, storePlanFrom]
  split
  · rfl
  · rename_i o ho
    obtain ⟨hproto, hdata⟩ := hu o ho
    split
    · rename_i hown
      obtain ⟨v, hv⟩ := hdata _ (List.mem_of_find?_eq_some hown)
      cases hv
    · rename_i hown
      obtain ⟨v, hv⟩ := hdata _ (List.mem_of_find?_eq_some hown)
      cases hv
    · rfl
    · rw [hproto]
      rfl

lemma Unhooked.modifyObject (hu : h.Unhooked r) (s : ObjectRef) (f : HeapObject → HeapObject)
    (hproto : ∀ o, (f o).prototype = o.prototype)
    (hf : ∀ o p, p ∈ (f o).properties → p ∈ o.properties ∨ ∃ v, p.slot = .data v) :
    (h.modifyObject s f).Unhooked r := by
  intro o ho
  simp only [Heap.modifyObject, Heap.object?, Arena.get?_modify] at ho
  split at ho
  · obtain ⟨before, hb, rfl⟩ := Option.map_eq_some_iff.mp ho
    obtain ⟨hnone, hdata⟩ := hu before hb
    refine ⟨(hproto before).trans hnone, fun p hp => ?_⟩
    rcases hf before p hp with hp | hp
    · exact hdata p hp
    · exact hp
  · exact hu o ho

lemma Unhooked.storeOwn (hu : h.Unhooked r) (s : ObjectRef) (key : Key) (value : Value)
    (hstore : h.storeOwn s key value = some h') : h'.Unhooked r := by
  unfold Heap.storeOwn at hstore
  split at hstore
  · exact Option.some.inj hstore ▸ hu
  · split at hstore
    · split at hstore
      · cases hstore
      · rw [← Option.some.inj hstore]
        exact hu.modifyObject _ _ (fun _ => rfl) fun _ _ hp => .inl hp
    · obtain ⟨length, -, rfl⟩ := Option.map_eq_some_iff.mp hstore
      exact hu.modifyObject _ _ (fun _ => rfl) fun _ _ hp => .inl hp
    · rw [← Option.some.inj hstore]
      unfold storeElement
      split
      · exact hu
      · refine hu.modifyObject _ _ (fun o => ?_) fun o p hp => .inl ?_
        · split
          · dsimp only
            split <;> rfl
          · rfl
        · split at hp
          · dsimp only at hp
            split at hp <;> exact hp
          · exact hp
    · rw [← Option.some.inj hstore]
      refine hu.modifyObject _ _ (fun _ => rfl) fun o p hp => ?_
      exact (HeapObject.mem_defineIn _ _ _ _ p hp).imp_right fun hslot => ⟨_, hslot⟩

lemma stored_of_body? (h : Heap) (s r : ObjectRef) (body : Body) (hb : h.body? s = some body)
    (hr : r ∈ body.references) : h.Stored r := by
  obtain ⟨o, ho, rfl⟩ := Option.map_eq_some_iff.mp hb
  exact ⟨s, o, ho, o.refers_of_mem_body r hr⟩

lemma stored_of_typedArray? (h : Heap) (s : ObjectRef) (view : TypedArrayView)
    (hv : h.typedArray? s = some view) : h.Stored view.buffer := by
  unfold typedArray? at hv
  split at hv
  · rename_i found hb
    obtain rfl := Option.some.inj hv
    exact h.stored_of_body? s _ _ hb (by simp [Body.references])
  · cases hv

lemma stored_of_dataView? (h : Heap) (s : ObjectRef) (view : DataView)
    (hv : h.dataView? s = some view) : h.Stored view.buffer := by
  unfold dataView? at hv
  split at hv
  · rename_i found hb
    obtain rfl := Option.some.inj hv
    exact h.stored_of_body? s _ _ hb (by simp [Body.references])
  · cases hv

lemma stored_of_promiseResult? (h : Heap) (s r : ObjectRef)
    (hv : h.promiseResult? s = some (.object r)) : h.Stored r := by
  obtain ⟨p, hp, hresult⟩ := Option.bind_eq_some_iff.mp hv
  obtain ⟨o, ho, hbody⟩ := h.promise?_eq_some s p hp
  split at hresult
  · cases hresult
  · refine ⟨s, o, ho, o.refers_of_mem_body r ?_⟩
    rw [hbody]
    exact (p.mem_references r).mpr (.inl (Option.some.inj hresult))

lemma ownNames_ne_object (o : HeapObject) (r : ObjectRef) : .object r ∉ ownNames o := by
  have hkey : ∀ key : Key, key.toValue ≠ .object r := by
    intro key
    cases key <;> simp [Key.toValue, Value.text]
  intro hmem
  simp only [ownNames, List.mem_append, List.mem_map] at hmem
  rcases hmem with (⟨i, -, hi⟩ | ⟨i, -, hi⟩) | ⟨p, -, hp⟩
  · exact absurd hi (by simp [Value.text])
  · exact hkey _ hi
  · exact hkey _ hp

end Heap

namespace Act.Meets

variable {v : View} {post : α → Heap → Prop} {act : Act σ α}

lemma map_any {β : Type} (h : Meets v pre act post) (f : α → β) :
    Meets v pre (f <$> act) fun _ _ => True := by
  intro w hw hin hpre
  obtain ⟨hc, hs, -⟩ := h w hw hin hpre
  exact ⟨hc, hs, trivial⟩

lemma get : Meets v pre (MonadState.get : Act σ (World σ)) fun _ h => pre h :=
  fun w hw _ hpre => ⟨.refl w, hw, hpre⟩

lemma of_eq (hact : ∀ w, (act w).2.engines = w.engines ∧ (act w).2.environments = w.environments) :
    Meets v pre act fun _ h => pre h := by
  intro w hw _ hpre
  obtain ⟨he, hn⟩ := hact w
  refine ⟨.of_eq he hn, hw.of_eq he hn, ?_⟩
  simpa only [World.engine, he] using hpre

lemma register (n : EnvironmentId) (callback : Callback) :
    Meets v pre (modifyGet fun w =>
      let (data, tables) := (w.environment n).tables.register callback
      (data, w.modifyEnvironment n ({ · with tables })) : Act σ CallbackData) fun _ h => pre h := by
  intro w hw _ hpre
  have ho := World.Opens.modifyEnvironment w n
    ({ · with tables := ((w.environment n).tables.register callback).2 }) 0 rfl rfl (.inl rfl)
  simp only [ite_self] at ho
  exact ⟨ho, hw.modifyEnvironment n _ rfl, hpre⟩

end Act.Meets

def Heap.Within (h : Heap) (r : ObjectRef) : Prop := h.Innermost r ∨ h.Stored r

def LendsHandle (kept : Heap → ObjectRef → Prop) (x : Option Handle) (h : Heap) : Prop :=
  ∀ r, x = some (.transient r) → kept h r

def LendsValue (kept : Heap → ObjectRef → Prop) (x : Option Tagged) (h : Heap) : Prop :=
  ∀ kind r, x = some (.object kind (.transient r)) → kept h r

section Lends

variable {kept : Heap → ObjectRef → Prop}

lemma LendsHandle.wrap (hr : kept h r) : LendsHandle kept (some (Environment.wrap r)) h :=
  fun _ hs => Handle.transient.inj (Option.some.inj hs) ▸ hr

lemma Act.Meets.noHandle {v : View} : Meets v pre (Pure.pure none : Act σ _) (LendsHandle kept) :=
  .pure fun _ _ _ _ hr => absurd hr (by simp)

lemma Act.Meets.noValue {v : View} : Meets v pre (Pure.pure none : Act σ _) (LendsValue kept) :=
  .pure fun _ _ _ _ _ hr => absurd hr (by simp)

end Lends

abbrev Makes (σ : Type) (n : EnvironmentId) (e : EngineId) (pre : Heap → Prop)
    (act : Act σ (Option Handle)) : Prop :=
  Meets (.environment n e) pre act (LendsHandle Heap.Innermost)

namespace Environment

section Handles

lemma engineOf_meets :
    Meets (.environment n e) pre (engineOf n : Act σ EngineId) fun x h => x = e ∧ pre h :=
  .returning .environment

lemma withEngine_meets {next : EngineId → Act σ α}
    (h : Meets (.environment n e) pre (next e) post) :
    Meets (.environment n e) pre (engineOf n >>= next) post := by
  refine .bind engineOf_meets fun x => .assuming fun hx => ?_
  subst hx
  exact h

lemma onHeap_meets (hf : ∀ h : Heap, h.Sound → pre h → h.Safely (f h).2 ∧ post (f h).1 (f h).2) :
    Meets (.environment n e) pre (onHeap n f : Act σ α) post :=
  withEngine_meets (.onHeap hf)

lemma onHeap_safely (hf : ∀ h : Heap, h.Sound → pre h → h.Safely (f h).2) :
    Runs n e pre (onHeap n f : Act σ α) :=
  withEngine_meets (.onHeap_safely hf)

lemma heapOf_meets :
    Meets (.environment n e) pre (heapOf n : Act σ Heap) fun now h => now = h ∧ pre h :=
  withEngine_meets .heap

lemma allocated_meets {f : Heap → ObjectRef × Heap}
    (hf : ∀ h : Heap, h.Sound → h.Safely (f h).2 ∧ (f h).2.Innermost (f h).1) :
    Meets (.environment n e) pre (allocated n f : Act σ Handle)
      fun x h => ∃ r, x = .transient r ∧ h.Innermost r :=
  .returning (onHeap_meets fun h hs _ => ⟨(hf h hs).1, _, rfl, (hf h hs).2⟩)

lemma made_meets {f : Heap → ObjectRef × Heap}
    (hf : ∀ h : Heap, h.Sound → h.Safely (f h).2 ∧ (f h).2.Innermost (f h).1) :
    Meets (.environment n e) pre (onHeap n f : Act σ ObjectRef) fun r h => h.LiveValue (.object r) := by
  refine onHeap_meets fun h hs _ => ⟨(hf h hs).1, fun r hr => ?_⟩
  exact Value.object.inj hr ▸ ((hf h hs).1.sound hs).live_of_innermost (hf h hs).2

lemma allocateBody_meets (f : Heap → Body) (hf : ∀ h, (f h).references = []) :
    Meets (.environment n e) pre (allocated n fun h => h.allocate (.ofBody (f h)) : Act σ Handle)
      fun x h => ∃ r, x = .transient r ∧ h.Innermost r :=
  allocated_meets fun h _ => ⟨h.safely_allocate_ofBody _ (by simp [hf]), h.innermost_allocate _⟩

lemma allocated?_meets {f : Heap → Option ObjectRef × Heap}
    (hf : ∀ h : Heap, h.Sound → pre h →
      h.Safely (f h).2 ∧ ∀ r, (f h).1 = some r → (f h).2.Innermost r) :
    Makes σ n e pre (allocated? n f) := by
  refine .returning (onHeap_meets fun h hs hpre => ⟨(hf h hs hpre).1, fun r hr => ?_⟩)
  obtain ⟨s, hsome, hwrap⟩ := Option.map_eq_some_iff.mp hr
  exact Handle.transient.inj hwrap ▸ (hf h hs hpre).2 s hsome

lemma resolve_meets (handle : Handle) :
    Meets (.environment n e) pre (resolve n handle : Act σ (Option ObjectRef))
      fun x h => ∀ r, x = some r → h.Live r :=
  onHeap_meets fun h _ _ => ⟨h.safely_resolveHandle handle, fun r hr =>
    (h.safely_resolveHandle handle).live fun _ => h.isAlive_of_resolveHandle handle r hr⟩

lemma resolving_meets {next : Option ObjectRef → Act σ α} (handle : Handle)
    (hnone : Meets (.environment n e) any (next none) post)
    (hsome : ∀ r, Meets (.environment n e) (·.Live r) (next (some r)) post) :
    Meets (.environment n e) pre (resolve n handle >>= next) post := by
  refine .bind (resolve_meets handle) fun found => ?_
  cases found with
  | none => exact hnone.under
  | some r => exact (hsome r).strengthen fun h _ hr => hr r rfl

lemma inspect_meets (handle : Handle) (f : Heap → ObjectRef → Option α) :
    Meets (.environment n e) pre (inspect n handle f : Act σ (Option α))
      fun x h => ∀ y, x = some y → ∃ r, f h r = some y := by
  refine resolving_meets handle (.pure fun _ _ _ y hy => absurd hy (by simp)) fun r => ?_
  refine .returning (heapOf_meets.weaken fun now h _ hnow y hy => ?_)
  exact ⟨r, hnow.1 ▸ hy⟩

lemma toValue_meets (value : Tagged) :
    Meets (.environment n e) pre (toValue n value : Act σ (Option Value))
      fun x h => ∀ v, x = some v → h.LiveValue v := by
  refine .returning (onHeap_meets fun h _ _ => ⟨h.safely_ofTagged value, fun v hv => ?_⟩)
  refine h.liveValue_ofTagged value v ?_
  cases hx : (h.ofTagged value).1 with
  | ok x => rw [hx] at hv; exact congrArg _ (Option.some.inj hv)
  | error x => rw [hx] at hv; exact absurd hv (by simp [Except.toOption])

lemma toValues_meets (values : List Tagged) :
    Meets (.environment n e) pre (toValues n values : Act σ (Option (List Value)))
      fun x h => ∀ vs, x = some vs → ∀ v ∈ vs, h.LiveValue v := by
  refine .returning (onHeap_meets fun h _ _ => ⟨(h.safely_ofTaggedAll values).1, fun vs hvs => ?_⟩)
  refine (h.safely_ofTaggedAll values).2 vs ?_
  cases hx : (h.ofTaggedAll values).1 with
  | ok x => rw [hx] at hvs; exact congrArg _ (Option.some.inj hvs)
  | error x => rw [hx] at hvs; exact absurd hvs (by simp [Except.toOption])

lemma recordThrow_meets (thrown : Throw) :
    Meets (.environment n e) pre (recordThrow n thrown : Act σ Unit) fun _ h => pre h :=
  .setException n _

lemma object_of_toTagged (h : Heap) (flags : Flags) (value : Value) (kind : ObjectKind)
    (r : ObjectRef) (ht : (h.toTagged flags value).toOption = some (.object kind (.transient r))) :
    value = .object r := by
  cases value with
  | object target =>
    simp only [Heap.toTagged] at ht
    split at ht
    · simp only [Except.toOption, Option.some.injEq, Tagged.object.injEq,
        Handle.transient.injEq] at ht
      rw [ht.2]
    · simp [Except.toOption] at ht
  | number x =>
    simp only [Heap.toTagged, Except.toOption, Tagged.ofNumber, Option.some.injEq] at ht
    split at ht <;> simp at ht
  | string units =>
    simp only [Heap.toTagged, Except.toOption, Tagged.ofUnits, Option.some.injEq] at ht
    split at ht <;> simp at ht
  | _ => simp [Heap.toTagged, Except.toOption] at ht

lemma toTagged_meets (flags : Flags) (value : Value) (kept : Heap → ObjectRef → Prop) :
    Meets (.environment n e) (fun h => ∀ r, value = .object r → kept h r)
      (do return ((← heapOf n).toTagged flags value).toOption : Act σ (Option Tagged))
      (LendsValue kept) :=
  .returning (heapOf_meets.weaken fun now _ _ hnow kind r hr =>
    hnow.2 r (object_of_toTagged now flags value kind r hr))

lemma deliver_meets (flags : Flags) (result : Except Throw Value) (kept : Heap → ObjectRef → Prop) :
    Meets (.environment n e) (fun h => ∀ v, result = .ok v → ∀ r, v = .object r → kept h r)
      (deliver n flags result : Act σ (Option Tagged))
      (LendsValue kept) := by
  cases result with
  | ok value => exact (toTagged_meets flags value kept).strengthen fun _ _ hv => hv value rfl
  | error thrown =>
    exact .bind (recordThrow_meets thrown) fun _ => .noValue

lemma succeeded_meets (result : Except Throw Unit) :
    Meets (.environment n e) pre (succeeded n result : Act σ Bool)
      fun ok h => ok = true → result = .ok () ∧ pre h := by
  cases result with
  | ok _ => exact .pure fun _ _ hpre _ => ⟨rfl, hpre⟩
  | error thrown =>
    exact .bind (recordThrow_meets thrown) fun _ => .pure fun _ _ _ hok => absurd hok (by simp)

lemma globalOf_meets :
    Meets (.environment n e) pre (globalOf n : Act σ ObjectRef) fun r h => h.global = some r := by
  have hread : ∀ w : World σ, globalOf n w =
      ((w.engine (w.environment n).engine).heap.global.getD default, w) := fun _ => rfl
  intro w hw hin _
  obtain ⟨g, hg⟩ := Option.isSome_iff_exists.mp (hw.global e hin.1)
  have hengine : (w.environment n).engine = e := hin.2.2
  rw [hread, hengine, hg]
  exact ⟨.refl w, hw, hg⟩

end Handles

section Properties

variable (hs : host.Steady)

include hs

section

variable (r : ObjectRef)

lemma write_meets (key value : Value) :
    Runs n e (·.LiveValue value)
      (do succeeded n (← Engine.setProperty host (← engineOf n) r key value)) :=
  withEngine_meets (.bind (.ofEngine (Engine.setProperty_meets hs e r key value)) fun result =>
    (succeeded_meets result).weaken fun _ _ _ _ => trivial)

lemma read_meets (key : Value) (flags : Flags) :
    Meets (.environment n e) pre
      (do deliver n flags (← Engine.getProperty host (← engineOf n) r key))
      (LendsValue Heap.Within) :=
  withEngine_meets (.bind (.ofEngine (Engine.getProperty_meets hs e r key)) fun result =>
    deliver_meets flags result Heap.Within)

lemma getOn_meets (key : Tagged) (flags : Flags) :
    Meets (.environment n e) pre (getOn host n r key flags) (LendsValue Heap.Within) := by
  refine .bind (toValue_meets key) fun key => ?_
  split
  · exact read_meets hs r _ flags
  · exact .noValue

lemma setOn_meets (key value : Tagged) : Runs n e pre (setOn host n r key value) := by
  refine .bind (toValue_meets key) fun key => .bind (toValue_meets value) fun value => ?_
  split
  · exact (write_meets hs r _ _).strengthen fun _ _ hv => hv _ rfl
  · exact .idle

end

variable (object : Handle)

lemma getProperty_meets (key : Tagged) (flags : Flags) :
    Meets (.environment n e) pre (getProperty host n object key flags) (LendsValue Heap.Within) :=
  resolving_meets object .noValue fun r => getOn_meets hs r key flags

lemma setProperty_meets (key value : Tagged) : Runs n e pre (setProperty host n object key value) :=
  resolving_meets object .idle fun r => setOn_meets hs r key value

lemma getIndex_meets (index : UInt32) (flags : Flags) :
    Meets (.environment n e) pre (getIndex host n object index flags) (LendsValue Heap.Within) :=
  resolving_meets object .noValue fun r => read_meets hs r _ flags

lemma setIndex_meets (index : UInt32) (value : Tagged) :
    Runs n e pre (setIndex host n object index value) := by
  refine .bind (resolve_meets object) fun r => .bind (toValue_meets value) fun value => ?_
  split
  · exact (write_meets hs _ _ _).strengthen fun _ _ hv => hv _ rfl
  · exact .idle

end Properties

-- An array being filled: writing to it runs no native code, and what is still to be written
-- is there.
structure Filling (array : ObjectRef) (values : List Value) (h : Heap) : Prop where
  kept : h.Innermost array
  unhooked : h.Roomy → h.Unhooked array
  live : ∀ v ∈ values, h.LiveValue v

namespace Filling

variable {array : ObjectRef} {value : Value} {values : List Value} {h h' : Heap}

-- Once positions have run out there is only one thing left to keep.
lemma of_full (hf : Filling array values h) (ho : Heap.Opens 0 h h') (hfull : ¬ h.Roomy) :
    Filling array values h' where
  kept := ho.innermost hf.kept
  unhooked hroom := absurd (Nat.lt_of_le_of_lt ho.size hroom) hfull
  live _ _ _ _ hroom := absurd (Nat.lt_of_le_of_lt ho.size hroom) hfull

lemma newArray (hs : h.Sound) (length : Nat) (hlive : ∀ v ∈ values, h.LiveValue v) :
    Filling (h.newArray length).1 values (h.newArray length).2 := by
  unfold Heap.newArray
  generalize hbody : HeapObject.ofBody (.array _) = o
  have hl : h.Safely (h.allocate o).2 := by
    subst hbody
    exact h.safely_allocate_ofBody _ (by simp [Body.references, Value.references, Value.object?])
  refine ⟨h.innermost_allocate o, fun hroom made hmade => ?_, fun v hv => hl.liveValue (hlive v hv)⟩
  have hbefore : h.Roomy := Nat.lt_of_le_of_lt hl.opens.size hroom
  have hself := Arena.get?_insert_self _ (hs.intact hbefore).wellFormed hbefore o
  rw [Heap.object?, Heap.allocate_objects] at hmade
  obtain rfl : o = made := Option.some.inj (hself.symm.trans hmade)
  subst hbody
  exact ⟨rfl, by simp [HeapObject.ofBody]⟩

lemma tail (hf : Filling array (value :: values) h) : Filling array values h :=
  { hf with live := fun v hv => hf.live v (List.mem_cons_of_mem _ hv) }

lemma storeOwn (hf : Filling array values h) (hs : h.Sound) (key : Key) (hv : h.LiveValue value)
    (hstore : h.storeOwn array key value = some h') : Filling array values h' := by
  have hl := h.safely_storeOwn hs array key value h' hv hstore
  refine ⟨hl.opens.innermost hf.kept, fun hroom => ?_, fun v hmem => hl.liveValue (hf.live v hmem)⟩
  exact (hf.unhooked (Nat.lt_of_le_of_lt hl.opens.size hroom)).storeOwn array key value hstore

end Filling

lemma refuse_meets (name : ErrorName) (message : String) (post : Heap → Prop) :
    Meets (.engine e) pre (Engine.raise e name message : Act σ (Except Throw Unit))
      fun x h => x = .ok () → post h := by
  refine (Engine.raise_meets e name message).weaken fun x h _ ⟨thrown, hx, _⟩ hok => ?_
  cases hx.symm.trans hok

lemma storeElement_meets (array : ObjectRef) (key : Key) (value : Value) (values : List Value) :
    Meets (.engine e) (Filling array (value :: values))
      (Act.onHeap e fun h =>
        match h.storeOwn array key value with
        | some h => (true, h)
        | none => (false, h) : Act σ Bool)
      fun stored h => stored = true → Filling array values h := by
  refine .onHeap fun h hsound hf => ?_
  have hv := hf.live value List.mem_cons_self
  split
  · rename_i h' hstore
    exact ⟨h.safely_storeOwn hsound array _ value h' hv hstore,
      fun _ => hf.tail.storeOwn hsound _ hv hstore⟩
  · exact ⟨.refl h, fun hfalse => absurd hfalse (by simp)⟩

lemma setElement_meets (hs : host.Steady) (array : ObjectRef) (key value : Value)
    (values : List Value) :
    Meets (.engine e) (Filling array (value :: values)) (Engine.setProperty host e array key value)
      fun x h => x = .ok () → Filling array values h := by
  refine .bind .heap fun now => ?_
  dsimp only
  split
  · exact refuse_meets _ _ _
  · split
    · exact .pure fun _ _ hnow _ => hnow.2.tail
    · refine .bind ((storeElement_meets array (now.keyOf key) value values).strengthen
        fun _ _ hnow => hnow.2) fun stored => ?_
      split
      · rename_i hstored
        exact .pure fun h _ hx _ => hx hstored
      · exact refuse_meets _ _ _
    · rename_i data hplan
      -- A setter would mean that the array is not the one that was made.
      have hfull : Filling array (value :: values) now → ¬ now.Roomy := by
        intro hf hroom
        rw [(hf.unhooked hroom).storePlan] at hplan
        cases hplan
      have hrun := (Engine.runSetter_meets hs e array value data).frame
        (fun h h' ho (hk : Filling array values h ∧ ¬ h.Roomy) =>
          (⟨hk.1.of_full ho hk.2, fun hroom => hk.2 (Nat.lt_of_le_of_lt ho.size hroom)⟩ :
            Filling array values h' ∧ ¬ h'.Roomy))
      refine hrun.conseq (fun h _ hnow => ⟨trivial, ?_⟩) fun _ _ _ hx _ => hx.2.1
      exact ⟨hnow.2.tail, hnow.1 ▸ hfull (hnow.1 ▸ hnow.2)⟩

section Arrays

variable (hs : host.Steady)

include hs

lemma fill_meets (array : ObjectRef) (index : Nat) (values : List Value) :
    Meets (.environment n e) (Filling array values) (fill host n array index values)
      fun ok h => ok = true → h.Innermost array := by
  induction values generalizing index with
  | nil => exact .pure fun _ _ hf _ => hf.kept
  | cons value rest ih =>
    refine withEngine_meets (.bind (.ofEngine (setElement_meets hs array _ value rest)) fun result =>
      .bind (succeeded_meets result) fun ok => ?_)
    split
    · rename_i hok
      exact (ih (index + 1)).strengthen fun h _ hx => (hx hok).2 (hx hok).1
    · exact .pure fun _ _ _ hfalse => absurd hfalse (by simp)

lemma arrayOf_meets (values : List Value) :
    Makes σ n e (fun h => ∀ v ∈ values, h.LiveValue v) (arrayOf host n values) := by
  have hmake : Meets (.environment n e) (fun h => ∀ v ∈ values, h.LiveValue v)
      (onHeap n (·.newArray values.length) : Act σ ObjectRef) fun array h => Filling array values h :=
    onHeap_meets fun h hsound hlive => ⟨h.safely_allocate_ofBody _ (by
      simp [Body.references, Value.references, Value.object?]), .newArray hsound _ hlive⟩
  refine .bind hmake fun array => .bind (fill_meets hs array 0 values) fun ok => ?_
  split
  · rename_i hok
    exact .pure fun h _ hx => .wrap (hx hok)
  · exact .noHandle

lemma propertyNames_meets (object : Handle) : Makes σ n e pre (propertyNames host n object) := by
  refine .bind (inspect_meets object _) fun names => ?_
  split
  · rename_i names
    refine (arrayOf_meets hs names).strengthen fun h _ hnames v hv r hr => ?_
    obtain ⟨s, hsome⟩ := hnames names rfl
    obtain ⟨o, -, rfl⟩ := Option.map_eq_some_iff.mp hsome
    exact absurd (hr ▸ hv) (Heap.ownNames_ne_object o r)
  · exact .noHandle

lemma newArrayWithValues_meets (values : List Tagged) :
    Makes σ n e pre (newArrayWithValues host n values) := by
  refine .bind (toValues_meets values) fun values => ?_
  split
  · exact (arrayOf_meets hs _).strengthen fun _ _ hlive => hlive _ rfl
  · exact .noHandle

end Arrays

section Functions

lemma executeScript_meets (code : Tagged) (file : Option String) (startLine : Int) (flags : Flags) :
    Meets (.environment n e) pre (executeScript n code file startLine flags : Act σ (Option Tagged))
      (LendsValue Heap.Innermost) := by
  unfold executeScript
  dsimp only
  split
  · rename_i source _
    have hrun : Meets (.environment n e) pre
        (onHeap n (·.execute source (file.getD "") startLine) : Act σ (Except Throw Value))
        fun x h => ∀ v, x = .ok v → ∀ r, v = .object r → h.Innermost r := by
      refine onHeap_meets fun h hs _ => ⟨(h.safely_execute hs _ _ _).1, fun v hv r hr => ?_⟩
      exact (h.safely_execute hs source (file.getD "") startLine).2 r (by rw [hv]; exact hr)
    exact .bind hrun fun result => deliver_meets flags result Heap.Innermost
  · exact .noValue

lemma safely_ownerHandle (h : Heap) (handle : Handle) : h.Safely (ownerHandle h handle).2 := by
  cases handle with
  | persistent slot => exact .refl h
  | transient target =>
    have hp := h.safely_persist target
    simp only [ownerHandle]
    split <;> rename_i heq <;> rw [heq] at hp
    · exact hp
    · exact hp.trans (Heap.safely_weaken _ _ _)

lemma newFunction_meets (flags : Flags) (f : NativeFunction) :
    Meets (.environment n e) pre (newFunction n flags f : Act σ Handle)
      fun x h => ∃ r, x = .transient r ∧ h.Innermost r :=
  .bind (.register n (.function ⟨f, flags, none⟩)) fun data =>
    allocated_meets fun h _ => ⟨h.safely_newFunction data none, h.innermost_allocate _⟩

lemma registerMember_meets (member : MemberEntry) :
    Meets (.environment n e) pre (registerMember n member : Act σ CallbackData) fun _ h => pre h :=
  .register n (.member member)

variable (hs : host.Steady)

include hs

lemma place_meets (target : ObjectRef) (name : String) (f : Heap → ObjectRef × Heap)
    (hf : ∀ h : Heap, h.Sound → h.Safely (f h).2 ∧ (f h).2.Innermost (f h).1)
    {next : ObjectRef → Bool → Act σ α}
    (hnext : ∀ inner ok, Meets (.environment n e) any (next inner ok) post) :
    Meets (.environment n e) pre (do
      let inner ← onHeap n f
      let ok ← succeeded n (← Engine.setProperty host e target (.text name) (.object inner))
      next inner ok) post := by
  refine .bind (made_meets hf) fun inner => .bind (.ofEngine (Engine.setProperty_meets hs e target _ _))
    fun result => .bind (succeeded_meets result) fun ok => ?_
  exact (hnext inner ok).under

lemma descend_meets (target : ObjectRef) (segments : List String) :
    Runs n e any (descend host n target segments) := by
  induction segments generalizing target with
  | nil => exact .idle
  | cons segment rest ih =>
    refine withEngine_meets (.bind (.ofEngine (Engine.getProperty_meets hs e target _)) fun found => ?_)
    split
    · exact .bind (recordThrow_meets _) fun _ => .idle
    · split
      · exact (ih _).under
      · refine place_meets hs target segment _ (fun h _ => ?_) fun inner ok => ?_
        · exact ⟨h.safely_allocate_ofBody _ (by simp [Body.references]), h.innermost_allocate _⟩
        · split
          · exact ih inner
          · exact .idle

omit hs in
lemma receiver_meets (this : Option Handle) :
    Runs n e pre (receiver n this : Act σ (Option ObjectRef)) := by
  cases this with
  | some handle => exact onHeap_safely fun h _ _ => h.safely_resolveHandle handle
  | none => exact globalOf_meets.map_any some

lemma callFunction_meets (function : Handle) (this : Option Handle) (args : List Tagged)
    (flags : Flags) :
    Meets (.environment n e) pre (callFunction host n function this args flags)
      (LendsValue Heap.Innermost) := by
  have hcall : ∀ {pre : Heap → Prop} f receiver values, Meets (.environment n e) pre
      (do deliver n flags (← Engine.call host (← engineOf n) f receiver values))
      (LendsValue Heap.Innermost) := by
    intro pre f receiver values
    refine withEngine_meets (.bind (.ofEngine (Engine.call_meets hs e f receiver values)) fun result => ?_)
    refine (deliver_meets flags result Heap.Innermost).strengthen fun h _ hx v hv r hr => ?_
    exact hx r (by rw [hv]; exact hr)
  rw [callFunction_receiver]
  refine resolving_meets function .noValue fun f => .bind (receiver_meets this) fun receiver => ?_
  split
  · refine .bind (toValues_meets args) fun values => ?_
    split
    · exact hcall _ _ _
    · exact .noValue
  · exact .noValue

lemma constructWith_meets (f : ObjectRef) (args : List Tagged) :
    Makes σ n e pre (constructWith host n f args) := by
  refine .bind (toValues_meets args) fun values => ?_
  split
  · refine withEngine_meets (.bind (.ofEngine (Engine.construct_meets hs e f _)) fun result => ?_)
    split
    · exact .pure fun h _ hx => .wrap (hx _ rfl)
    · exact .bind (recordThrow_meets _) fun _ => .noHandle
  · exact .noHandle

lemma callAsConstructor_meets (function : Handle) (args : List Tagged) :
    Makes σ n e pre (callAsConstructor host n function args) :=
  resolving_meets function .noHandle fun f => constructWith_meets hs f args

omit hs in
lemma holder_meets (owner : Option Handle) :
    Runs n e pre (holder n owner : Act σ (Option Handle)) := by
  cases owner with
  | some handle => exact onHeap_safely fun h _ _ => safely_ownerHandle h handle
  | none => exact .idle

lemma putFunction_meets (target : ObjectRef) (name : String) (entry : FunctionEntry) :
    Runs n e pre (putFunction host n target name entry) := by
  refine .bind (.register n (.domain entry)) fun data => .bind (made_meets fun h _ => ?_)
    fun function => write_meets hs target (.text name) (.object function)
  exact ⟨h.safely_newFunction _ _, h.innermost_allocate _⟩

lemma registerCallback_meets (owner : Option Handle) (domain : String) (flags : Flags)
    (f : NativeFunction) :
    Runs n e pre (registerCallback host n owner domain flags f) := by
  rw [registerCallback_eq]
  split
  · refine .bind (receiver_meets owner) fun root => ?_
    split
    · rw [registerBelow_eq]
      refine .bind (holder_meets owner) fun held => .bind (descend_meets hs _ _) fun target => ?_
      split
      · exact putFunction_meets hs _ _ _
      · exact .idle
    · exact .idle
  · exact .idle

end Functions

section Classes

lemma installProperties_meets (template : TemplateRef) (properties : List PropertyDefinition) :
    Runs n e any (installProperties n template properties : Act σ (Option String)) := by
  induction properties with
  | nil => exact .idle
  | cons p rest ih =>
    refine .bind (registerMember_meets _) fun data =>
      .bind (onHeap_safely fun h hs _ => h.safely_addAccessor hs _ _ _ _) fun accepted => ?_
    split
    · exact ih
    · exact .idle

lemma installMethods_meets (template : TemplateRef) (methods : List MethodDefinition) :
    Runs n e any (installMethods n template methods : Act σ (Option String)) := by
  induction methods with
  | nil => exact .idle
  | cons m rest ih =>
    refine .bind (registerMember_meets _) fun data =>
      .bind (onHeap_safely fun h hs _ => h.safely_addMethod hs _ _ _) fun accepted => ?_
    split
    · exact ih
    · exact .idle

lemma compile_meets (d : ClassDefinition) (parent : Option ClassId) :
    Runs n e any (compile n d parent : Act σ (Except ClassError ClassId)) := by
  refine .bind .get fun w => ?_
  dsimp only
  split
  · exact .idle
  · split
    on_goal 1 => refine .bind ((registerMember_meets _).map_any some) fun constructor => ?_
    on_goal 2 => refine .bind (.ofOrderly (.pure _)) fun constructor => ?_
    all_goals
      refine .bind (onHeap_safely fun h _ _ => h.safely_newTemplate _ (by simp [Template.Refers]))
        fun created => ?_
      split
      · refine .bind (installProperties_meets _ _) fun refused => ?_
        split
        on_goal 1 => refine .bind (.ofOrderly (.pure _)) fun refused => ?_
        on_goal 2 => refine .bind (installMethods_meets _ _) fun refused => ?_
        all_goals
          split
          · exact .bind (onHeap_safely fun _ _ _ => .op (.discardTemplate _) trivial) fun _ => .idle
          · exact .bind (.of_eq fun _ => ⟨rfl, rfl⟩) fun _ => .idle
      · exact .idle

lemma createClass_meets (d : ClassDefinition) (parent : Option ClassId) :
    Runs n e pre (createClass n d parent : Act σ (Except ClassError ClassId)) := by
  unfold createClass
  dsimp only
  split
  on_goal 1 => refine .bind (.ofOrderly (.returning (.environment n) _)) fun existing => ?_
  on_goal 2 => refine .bind (.ofOrderly (.pure none)) fun existing => ?_
  all_goals
    split
    · exact .idle
    · refine .bind (compile_meets d parent) fun result => ?_
      split
      · exact .idle
      · refine .bind (.updateEnvironment n (fun _ => ?_) fun _ => ?_) fun _ => .idle
        all_goals split <;> rfl

lemma newInstance_meets (c : ClassId) : Makes σ n e pre (newInstance n c) := by
  refine .bind .get fun w => ?_
  split
  · rename_i compiled _
    have hmake : Meets (.environment n e) pre
        (onHeap n (·.newInstance compiled.template) : Act σ (Option ObjectRef))
        fun x h => ∀ r, x = some r → h.Innermost r :=
      onHeap_meets fun h hs _ => h.safely_newInstance hs compiled.template
    refine .bind hmake fun made => ?_
    split
    · rename_i r
      dsimp only
      split
      · rename_i finalizer _
        refine .returning (onHeap_meets fun h _ hx => ⟨safely_attachFinalizer r finalizer h, ?_⟩)
        exact .wrap ((safely_attachFinalizer r finalizer h).opens.innermost (hx r rfl))
      · exact .pure fun h _ hx => .wrap (hx r rfl)
    · exact .noHandle
  · exact .noHandle

lemma classConstructor_meets (c : ClassId) : Makes σ n e pre (classConstructor n c) := by
  refine .bind .get fun w => ?_
  split
  · exact allocated?_meets fun h hs _ => h.safely_templateFunction hs _
  · exact .noHandle

lemma newInstanceWithConstructor_meets (hs : host.Steady) (c : ClassId) (args : List Tagged) :
    Makes σ n e pre (newInstanceWithConstructor host n c args) := by
  refine .bind .get fun w => ?_
  split
  · refine .bind (onHeap_safely fun h hsound _ => (h.safely_templateFunction hsound _).1)
      fun function => ?_
    split
    · exact constructWith_meets hs _ args
    · exact .noHandle
  · exact .noHandle

end Classes

section References

lemma newReference_meets (object : Handle) :
    Meets (.environment n e) pre (newReference n object : Act σ (Option Handle))
      (LendsHandle fun _ _ => False) := by
  refine resolving_meets object .noHandle fun r => ?_
  refine .returning (onHeap_meets fun h _ _ => ⟨h.safely_persist r, fun s => ?_⟩)
  cases (h.persist r).1 <;> simp

lemma makeWeak_meets (handle : Handle) (hook : Option ReclaimHook) :
    Meets (.environment n e) pre (makeWeak n handle hook : Act σ (Option Handle))
      (LendsHandle fun _ _ => False) := by
  cases handle with
  | transient target => exact .noHandle
  | persistent slot =>
    refine .bind (onHeap_safely fun h _ _ => h.safely_weaken slot hook) fun weak => ?_
    split <;> exact .pure fun _ _ _ r => by simp

lemma newWeakReference_meets (object : Handle) (hook : Option ReclaimHook) :
    Meets (.environment n e) pre (newWeakReference n object hook : Act σ (Option Handle))
      (LendsHandle fun _ _ => False) := by
  refine .bind (newReference_meets object) fun strong => ?_
  split
  · exact makeWeak_meets _ hook
  · exact .noHandle

lemma setField_meets (i : Heap.FieldIndex) (object : Handle) (word : Pointer) :
    Runs n e pre (setField n i object word : Act σ Bool) :=
  resolving_meets object .idle fun r => onHeap_safely fun h hs _ => h.safely_setField hs r i word

end References

section Buffers

lemma newTypedArray_meets (kind : ElementKind) (count : Nat) :
    Makes σ n e pre (newTypedArray n kind count) := by
  unfold newTypedArray
  split
  · exact .noHandle
  · split
    · exact .bind (onHeap_safely fun h _ _ => h.safely_allocate_ofBody _ (by simp [Body.references]))
        fun _ => allocated?_meets fun h _ _ => h.safely_newTypedArray _ _ _ _
    · exact .noHandle

lemma newTypedArrayOnBuffer_meets (kind : ElementKind) (buffer : Handle) (offset count : Nat) :
    Makes σ n e pre (newTypedArrayOnBuffer n kind buffer offset count) := by
  refine resolving_meets buffer .noHandle fun r => ?_
  dsimp only
  split
  · exact allocated?_meets fun h _ _ => h.safely_newTypedArray _ _ _ _
  · exact .noHandle

lemma newDataView_meets (buffer : Handle) (offset length : Nat) :
    Makes σ n e pre (newDataView n buffer offset length) :=
  resolving_meets buffer .noHandle fun _ => allocated?_meets fun h _ _ => h.safely_newDataView _ _ _

lemma allocatedBuffer_meets (f : Heap → Backing) :
    Makes σ n e pre
      (do return some (← allocated n fun h => h.allocate (.ofBody (.arrayBuffer (f h))))) := by
  refine .returning ((allocateBody_meets _ fun _ => by simp [Body.references]).weaken ?_)
  rintro x h _ ⟨s, rfl, hs⟩
  exact .wrap hs

lemma newArrayBuffer_meets (length : Nat) : Makes σ n e pre (newArrayBuffer n length) := by
  unfold newArrayBuffer
  split
  · exact .noHandle
  · exact allocatedBuffer_meets _

lemma newExternalArrayBuffer_meets (memory : Option (Array UInt8)) (release : Option ReleaseHook)
    (address : Pointer) :
    Makes σ n e pre (newExternalArrayBuffer n memory release address) := by
  unfold newExternalArrayBuffer
  split
  · exact allocatedBuffer_meets _
  · exact .noHandle

variable (object : Handle)

lemma viewBuffer_meets {view? : Heap → ObjectRef → Option α} {buffer : α → ObjectRef}
    (hstored : ∀ h s view, view? h s = some view → h.Stored (buffer view)) :
    Meets (.environment n e) pre
      (do return (← inspect n object view?).map (wrap <| buffer ·) : Act σ (Option Handle))
      (LendsHandle Heap.Stored) := by
  refine .returning ((inspect_meets object _).weaken fun found h _ hfound r hr => ?_)
  obtain ⟨view, rfl, hview⟩ := Option.map_eq_some_iff.mp hr
  obtain ⟨s, hsome⟩ := hfound view rfl
  exact Handle.transient.inj hview ▸ hstored h s view hsome

lemma writeContents_meets (offset : Nat) (bytes : List UInt8) :
    Runs n e pre (writeContents n object offset bytes : Act σ Bool) :=
  resolving_meets object .idle fun r =>
    onHeap_safely fun h hs _ => h.safely_writeContents hs r offset bytes

end Buffers

section Promises

lemma resolverPromise_meets (resolver : Handle) : Makes σ n e pre (resolverPromise n resolver) :=
  resolving_meets resolver .noHandle fun r =>
    allocated?_meets fun h hs _ => h.safely_resolverPromise hs r

lemma settleWith_meets (resolver : Handle) (value : Tagged)
    (f : Heap → ObjectRef → Value → Bool × Heap)
    (hf : ∀ (h : Heap) r v, h.Sound → h.LiveValue v → h.Safely (f h r v).2) :
    Runs n e pre (settleWith n resolver value f : Act σ Bool) := by
  refine .bind (resolve_meets resolver) fun r => .bind (toValue_meets value) fun value => ?_
  split
  · exact onHeap_safely fun h hs hv => hf h _ _ hs (hv _ rfl)
  · exact .idle

lemma handleWith_meets (promise handler : Handle)
    (f : Heap → ObjectRef → ObjectRef → Option ObjectRef × Heap)
    (hf : ∀ (h : Heap) p r, h.Sound → h.Live r → h.Safely (f h p r).2) :
    Runs n e pre (handleWith n promise handler f : Act σ Bool) := by
  refine .bind (resolve_meets promise) fun p => .bind (resolve_meets handler) fun r => ?_
  split
  · exact (onHeap_safely fun h hs hr => hf h _ _ hs (hr _ rfl)).map_any _
  · exact .idle

lemma promiseResult_meets (promise : Handle) (flags : Flags) :
    Meets (.environment n e) pre (promiseResult n promise flags : Act σ (Option Tagged))
      (LendsValue Heap.Stored) := by
  refine .bind (inspect_meets promise _) fun value => ?_
  split
  · rename_i value
    refine (toTagged_meets flags value Heap.Stored).strengthen fun h _ hx r hr => ?_
    obtain ⟨s, hsome⟩ := hx value rfl
    exact h.stored_of_promiseResult? s r (hr ▸ hsome)
  · exact .noValue

end Promises

end Environment

end HostBoundary
