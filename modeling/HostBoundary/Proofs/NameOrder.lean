import HostBoundary.Proofs.PropertyMap

namespace HostBoundary

namespace HeapObject

variable {o : HeapObject}

lemma keys_defineIn (key : Key) (value : Value) (enumerable : Bool) (properties : List Property) :
    (defineIn key value enumerable properties).map (·.key) = properties.map (·.key) ++
      if key ∉ properties.map (·.key) then [key] else [] := by
  induction properties with
  | nil => simp [defineIn]
  | cons p rest ih =>
    rw [defineIn]
    split
    next hp => simp [hp]
    next hp => simp [ih, Ne.symm hp]

-- Elements count as keys of their own, before all others.
def keys (o : HeapObject) : List Key :=
  (List.range o.body.extent).map (fun i => .index (.ofNat i)) ++ Key.listing (shown o.properties)

end HeapObject

-- Properties set on one object, one after another. The keys are those that the values came to.
inductive Engine.Sets {τ : Type} (host : Host τ) (e : EngineId) (r : ObjectRef) (m : World τ) :
    List Key → World τ → Prop where
  | nothing : Sets host e r m [] m
  | set {keys : List Key} {m' m'' : World τ} (hs : Sets host e r m keys m') (key value : Value)
      (hset : setProperty host e r key value m' = (.ok (), m'')) :
      Sets host e r m (keys ++ [(m'.engine e).heap.keyOf key]) m''

-- An object that was plain and empty and has been given properties under these keys.
structure HeapObject.Given (keys : List Key) (o : HeapObject) : Prop where
  body : o.body = .plain
  prototype : o.prototype = none
  stocked : Stocked o.properties
  order : o.properties.map (·.key) = keys.eraseDups
  shown : shown o.properties = keys.eraseDups

namespace HeapObject

variable {o : HeapObject} {keys : List Key}

lemma Given.define (hg : Given keys o) {key : Key} (hk : key.Canonical) (value : Value) :
    Given (keys ++ [key]) (o.define key value true) where
  body := hg.body
  prototype := hg.prototype
  stocked := hg.stocked.defineIn value fun _ => hk
  order := by
    rw [HeapObject.define, keys_defineIn, hg.order, List.eraseDups_append]
    by_cases hmem : key ∈ keys <;> simp [hmem, List.removeAll, List.eraseDups_cons]
  shown := by
    rw [HeapObject.define, shown_defineIn, hg.order, hg.shown, List.eraseDups_append]
    by_cases hmem : key ∈ keys <;> simp [hmem, List.removeAll, List.eraseDups_cons]

end HeapObject

lemma Engine.Sets.given {τ : Type} {host : Host τ} {e : EngineId} {r : ObjectRef} {m m' : World τ}
    {keys : List Key} (hs : Sets host e r m keys m') (he : m.HasEngine e)
    (hr : (m.engine e).heap.object? r = some (.ofBody .plain)) :
    m'.HasEngine e ∧ ∃ o, (m'.engine e).heap.object? r = some o ∧ o.Given keys := by
  induction hs with
  | nothing => exact ⟨he, _, hr, rfl, rfl, HeapObject.stocked_nil, rfl, rfl⟩
  | @set keys m' m'' _ key value hset ih =>
    obtain ⟨he', o, ho, hg⟩ := ih
    generalize hkey : (m'.engine e).heap.keyOf key = k
    have hplan := Heap.storePlan_of_open ho hg.prototype (HeapObject.open_of_data hg.stocked.data k)
    have hstore : (m'.engine e).heap.storeOwn r k value =
        some ((m'.engine e).heap.modifyObject r (·.define k value true)) := by
      simp only [Heap.storeOwn, ho, hg.body]
    rw [← hkey] at hplan hstore
    rw [setProperty_of_stored (Heap.isAlive_of_object? _ r o ho) hplan hstore] at hset
    obtain rfl := (Prod.mk.inj hset).2
    refine ⟨?_, o.define k value true, ?_, hg.define (hkey ▸ Heap.canonical_keyOf _ key) value⟩
    · exact ((World.Replaces.modifyEngine m' e _).hasEngine e).mpr he'
    · rw [World.heap_modifyEngine he', hkey]
      exact Heap.object?_modifyObject_self ho _

variable {σ τ : Type} {host : Host σ} {diary : σ → List (World Unit)}

def bare : World Unit :=
  World.after Host.inert { host := () } [.newEngine {}, .attach ⟨0⟩, .operate ⟨0⟩ .newObject]

def given (key : Value) (m : World Unit) : World Unit :=
  (Engine.setProperty Host.inert ⟨0⟩ (.first 1) key .null m).2

end HostBoundary
