import HostBoundary.Proofs.Receivers
import HostBoundary.Proofs.Shapes

namespace HostBoundary

variable {σ α β : Type} {host : Host σ} {diary : σ → List (World Unit)} {n : EnvironmentId}
  {barred : EngineId → Heap → ObjectRef → Key → Prop} {s : σ} {e : EngineId} {r target : ObjectRef}
  {key : Value} {value : Tagged} {object : Handle} {owner : Option Handle} {flags : Flags}
  {f : NativeFunction} {m : World Unit}

-- A property is set: in which world, by which engine, of which object and under which key.
structure Write (σ : Type) where
  world : World σ
  engine : EngineId
  object : ObjectRef
  key : Value

def Write.Spares (barred : EngineId → Heap → ObjectRef → Key → Prop) (x : Write σ) : Prop :=
  let h := (x.world.engine x.engine).heap
  h.storePlan x.object (h.keyOf x.key) = .define → ¬ barred x.engine h x.object (h.keyOf x.key)

namespace Environment

-- The writes that an operation makes come from an act that goes the same way.
def writeNow (n : EnvironmentId) (r : ObjectRef) (key : Value) : Act σ (List (Write σ)) := do
  return [⟨← get, ← engineOf n, r, key⟩]

def writesOn (n : EnvironmentId) (r : ObjectRef) (key value : Tagged) : Act σ (List (Write σ)) := do
  let key ← toValue n key
  let value ← toValue n value
  match key, value with
  | some key, some _ => writeNow n r key
  | _, _ => return []

def writesTo (n : EnvironmentId) (object : Handle) (key value : Tagged) :
    Act σ (List (Write σ)) := do
  let some r ← resolve n object | return []
  writesOn n r key value

def writesAt (n : EnvironmentId) (object : Handle) (index : UInt32) (value : Tagged) :
    Act σ (List (Write σ)) := do
  let r ← resolve n object
  let value ← toValue n value
  match r, value with
  | some r, some _ => writeNow n r (.ofInt index.toNat)
  | _, _ => return []

def writesDown (host : Host σ) (n : EnvironmentId) (target : ObjectRef) :
    List String → Act σ (List (Write σ))
  | [] => pure []
  | segment :: rest => do
    let e ← engineOf n
    match ← Engine.getProperty host e target (.text segment) with
    | .error _ => return []
    | .ok value =>
      match value.object? with
      | some inner => writesDown host n inner rest
      | none =>
        let inner ← onHeap n (·.newObject)
        let first : Write σ := ⟨← get, e, target, .text segment⟩
        match ← Engine.setProperty host e target (.text segment) (.object inner) with
        | .error _ => return [first]
        | .ok _ => return first :: (← writesDown host n inner rest)

def writesFilling (host : Host σ) (n : EnvironmentId) (array : ObjectRef) (index : Nat) :
    List Value → Act σ (List (Write σ))
  | [] => pure []
  | value :: rest => do
    let e ← engineOf n
    let first : Write σ := ⟨← get, e, array, .ofInt index⟩
    match ← Engine.setProperty host e array (.ofInt index) value with
    | .error _ => return [first]
    | .ok _ => return first :: (← writesFilling host n array (index + 1) rest)

def writesInto (host : Host σ) (n : EnvironmentId) (values : List Value) :
    Act σ (List (Write σ)) := do
  let array ← onHeap n (·.newArray values.length)
  writesFilling host n array 0 values

def writesNaming (host : Host σ) (n : EnvironmentId) (object : Handle) :
    Act σ (List (Write σ)) := do
  let some names ← inspect n object (·.ownNames?) | return []
  writesInto host n names

def writesValues (host : Host σ) (n : EnvironmentId) (values : List Tagged) :
    Act σ (List (Write σ)) := do
  let some values ← toValues n values | return []
  writesInto host n values

def registered (n : EnvironmentId) (name : String) (entry : FunctionEntry) : Act σ ObjectRef := do
  let data ← modifyGet fun w =>
    let (data, tables) := (w.environment n).tables.registerDomain entry
    (data, w.modifyEnvironment n ({ · with tables }))
  onHeap n (·.newFunction data (some name))

def writesLast (host : Host σ) (n : EnvironmentId) (segments : List String) (entry : FunctionEntry)
    (root : ObjectRef) : Act σ (List (Write σ)) := do
  let some target ← descend host n root segments.dropLast | return []
  discard (registered n (segments.getLast?.getD "") entry)
  writeNow n target (.text (segments.getLast?.getD ""))

def writesRegistering (host : Host σ) (n : EnvironmentId) (owner : Option Handle)
    (domain : String) (flags : Flags) (f : NativeFunction) (w : World σ) : List (Write σ) :=
  match segments? domain with
  | none => []
  | some segments =>
    match receiver n owner w with
    | (none, _) => []
    | (some root, w) =>
      let (owner, w) := holder n owner w
      (writesDown host n root segments.dropLast w).1 ++
        (writesLast host n segments ⟨f, flags, owner⟩ root w).1

-- The properties that an operation sets by itself, before native code that it calls sets any.
def Operation.writes (host : Host σ) (n : EnvironmentId) (w : World σ) :
    Environment.Operation.Known → List (Write σ)
  | .registerCallback owner domain flags f => writesRegistering host n owner domain flags f w
  | .setGlobal key value => (writesOn n ((globalOf n w).1) key value w).1
  | .setProperty object key value => (writesTo n object key value w).1
  | .setPropertyValue object name value => (writesTo n object (.utf8 name) value w).1
  | .setIndex object index value => (writesAt n object index value w).1
  | .propertyNames object => (writesNaming host n object w).1
  | .newArrayWithValues values => (writesValues host n values w).1
  | _ => []

end Environment

def Action.writes (host : Host σ) (w : World σ) : Action → List (Write σ)
  | .operate n op => op.writes host n w
  | .request e (.set r key _) => [⟨w, e, r, key⟩]
  | .foreign env call => ((call.operation? env).map fun x => x.2.writes host x.1 w).getD []
  | _ => []

def Action.Spares (barred : EngineId → Heap → ObjectRef → Key → Prop) (host : Host σ)
    (w : World σ) (action : Action) : Prop :=
  ∀ x ∈ action.writes host w, x.Spares barred

section Access

namespace Engine

variable {w : World σ} {e : EngineId} {r : ObjectRef} {key value : Value}
  (halive : (w.engine e).heap.isAlive r = true)

include halive

lemma getProperty_of_alive :
    getProperty host e r key w =
      (match (w.engine e).heap.lookup r ((w.engine e).heap.keyOf key) with
        | .value v => pure (.ok v)
        | .missing => pure (.ok .undefined)
        | .getter data => do outcome e (← dispatch host e data ⟨.get, .object r, []⟩) :
          Act σ (Except Throw Value)) w := by
  have hguard : ¬ (!(w.engine e).heap.isAlive r) = true := by simp [halive]
  exact congrFun (if_neg hguard) w

omit halive in
lemma setProperty_of_dead (hdead : ¬ (w.engine e).heap.isAlive r = true) :
    setProperty host e r key value w =
      raise e .typeError "cannot set properties of a collected object" w := by
  have hguard : (!(w.engine e).heap.isAlive r) = true := by simp [hdead]
  exact congrFun (if_pos hguard) w

lemma setProperty_of_alive :
    setProperty host e r key value w =
      (match (w.engine e).heap.storePlan r ((w.engine e).heap.keyOf key) with
        | .readOnly => pure (.ok ())
        | .define => do
          let stored ← Act.onHeap e fun h =>
            match h.storeOwn r ((w.engine e).heap.keyOf key) value with
            | some h => (true, h)
            | none => (false, h)
          if stored then return .ok () else raise e .rangeError "Invalid array length"
        | .setter data => do
          return (← outcome e (← dispatch host e data ⟨.set value, .object r, []⟩)).map fun _ => () :
          Act σ (Except Throw Unit)) w := by
  have hguard : ¬ (!(w.engine e).heap.isAlive r) = true := by simp [halive]
  exact congrFun (if_neg hguard) w

variable (hplan : (w.engine e).heap.storePlan r ((w.engine e).heap.keyOf key) = .define)

include hplan

lemma setProperty_of_stored {h' : Heap}
    (hs : (w.engine e).heap.storeOwn r ((w.engine e).heap.keyOf key) value = some h') :
    setProperty host e r key value w = (.ok (), w.modifyEngine e ({ · with heap := h' })) := by
  rw [setProperty_of_alive halive]
  simp only [hplan, bind_apply, Act.onHeap, hs]
  rfl

lemma setProperty_of_refused
    (hs : (w.engine e).heap.storeOwn r ((w.engine e).heap.keyOf key) value = none) :
    setProperty host e r key value w = raise e .rangeError "Invalid array length" w := by
  rw [setProperty_of_alive halive]
  simp only [hplan, bind_apply, Act.onHeap, hs, World.modifyEngine_self]
  rfl

end Engine

end Access

section Sparing

open World (Follows order_follows)

variable (hh : host.Keeps (Follows diary barred) fun _ => Follows diary barred) {w : World σ}
  (hw : w.Staffed)

include hh hw

lemma Engine.setProperty_goes (value : Value)
    (hfree : (w.engine e).heap.Grown → (w.engine e).heap.Roomy →
      (Write.mk w e r key).Spares barred) :
    w.Goes (Follows diary barred) (Engine.setProperty host e r key value w).2 := by
  have hplain := hh.plain order_follows []
  have hof : ∀ {α : Type} {act : Act σ α} {w : World σ}, w.Staffed →
      Act.Keeps (Follows diary barred) [] act → w.Goes (Follows diary barred) (act w).2 :=
    fun hw h => h _ hw (by simp)
  by_cases halive : (w.engine e).heap.isAlive r = true
  · cases hplan : (w.engine e).heap.storePlan r ((w.engine e).heap.keyOf key) with
    | readOnly =>
      rw [setProperty_of_alive halive, hplan]
      exact .refl order_follows w
    | define =>
      cases hs : (w.engine e).heap.storeOwn r ((w.engine e).heap.keyOf key) value with
      | some h' =>
        rw [setProperty_of_stored halive hplan hs]
        exact (World.Replaces.modifyEngine w e h').goes order_follows (.modifyEngine w e fun hg =>
          .single (.store r _ value (Heap.canonical_keyOf _ key) hplan hs fun hroom =>
            hfree hg hroom hplan))
      | none =>
        rw [setProperty_of_refused halive hplan hs]
        exact hof hw (hplain.raise e _ _)
    | setter data =>
      rw [setProperty_of_alive halive, hplan]
      exact hof hw (hplain.bind (hplain.dispatch e _ _ (by simp)) fun completion =>
        hplain.returning (hplain.outcome e completion) _)
  · rw [setProperty_of_dead halive]
    exact hof hw (hplain.raise e _ _)

namespace Environment

omit hh in
-- An act and the one that tells of its writes go the same way while they begin with the same.
lemma along {first : Act σ α} {next : α → Act σ β} {writes : α → Act σ (List (Write σ))}
    (hfirst : w.Goes (Follows diary barred) (first w).2)
    (hs : ∀ x ∈ ((first >>= writes) w).1, x.Spares barred)
    (hnext : ∀ x (w : World σ), w.Staffed → (∀ y ∈ (writes x w).1, y.Spares barred) →
      w.Goes (Follows diary barred) (next x w).2) :
    w.Goes (Follows diary barred) ((first >>= next) w).2 :=
  hfirst.trans order_follows (hnext _ _ (hfirst.staffed hw) hs)

lemma write_goes (value : Value)
    (hfree : (w.engine (w.environment n).engine).heap.Grown →
      (w.engine (w.environment n).engine).heap.Roomy →
        (Write.mk w (w.environment n).engine r key).Spares barred) :
    w.Goes (Follows diary barred) ((do
      succeeded n (← Engine.setProperty host (← engineOf n) r key value) : Act σ Bool) w).2 := by
  have hset := Engine.setProperty_goes hh hw value hfree
  exact hset.trans order_follows
    ((closed_keeps order_follows hh [] n).succeeded _ _ (hset.staffed hw) (by simp))

lemma setOn_goes {key : Tagged} (hs : ∀ x ∈ (writesOn n r key value w).1, x.Spares barred) :
    w.Goes (Follows diary barred) (setOn host n r key value w).2 := by
  have hconvert := fun value => (closed_keeps order_follows hh [] n).toValue value
  refine along hw (hconvert key w hw (by simp)) hs fun k w hw hs =>
    along hw (hconvert value w hw (by simp)) hs fun v w hw hs => ?_
  cases k with
  | none => exact .refl order_follows w
  | some k =>
    cases v with
    | none => exact .refl order_follows w
    | some v => exact write_goes hh hw v fun _ _ => hs _ List.mem_cons_self

lemma setProperty_goes {key : Tagged}
    (hs : ∀ x ∈ (writesTo n object key value w).1, x.Spares barred) :
    w.Goes (Follows diary barred) (setProperty host n object key value w).2 := by
  refine along hw ((closed_keeps order_follows hh [] n).resolve object w hw (by simp)) hs
    fun r w hw hs => ?_
  cases r with
  | none => exact .refl order_follows w
  | some r => exact setOn_goes hh hw hs

lemma setIndex_goes {index : UInt32}
    (hs : ∀ x ∈ (writesAt n object index value w).1, x.Spares barred) :
    w.Goes (Follows diary barred) (setIndex host n object index value w).2 := by
  have hclosed := closed_keeps order_follows hh [] n
  refine along hw (hclosed.resolve object w hw (by simp)) hs fun r w hw hs =>
    along hw (hclosed.toValue value w hw (by simp)) hs fun v w hw hs => ?_
  cases r with
  | none => exact .refl order_follows w
  | some r =>
    cases v with
    | none => exact .refl order_follows w
    | some v => exact write_goes hh hw v fun _ _ => hs _ List.mem_cons_self

lemma setGlobal_goes {key : Tagged}
    (hs : ∀ x ∈ (writesOn n (globalOf n w).1 key value w).1, x.Spares barred) :
    w.Goes (Follows diary barred) (setGlobal host n key value w).2 := by
  rw [setGlobal, Engine.bind_apply]
  exact setOn_goes hh hw hs

lemma along_set {value : Value}
    {next : Except Throw Unit → Act σ β} {rest : Act σ (List (Write σ))}
    (hs : ∀ x ∈ ((do
      let first : Write σ := ⟨← get, e, r, key⟩
      match ← Engine.setProperty host e r key value with
      | .error _ => return [first]
      | .ok _ => return first :: (← rest) : Act σ (List (Write σ))) w).1, x.Spares barred)
    (herror : ∀ thrown (w : World σ), w.Staffed →
      w.Goes (Follows diary barred) (next (.error thrown) w).2)
    (hok : ∀ w : World σ, w.Staffed → (∀ x ∈ (rest w).1, x.Spares barred) →
      w.Goes (Follows diary barred) (next (.ok ()) w).2) :
    w.Goes (Follows diary barred) ((Engine.setProperty host e r key value >>= next) w).2 := by
  have hget : (get : Act σ (World σ)) w = (w, w) := rfl
  simp only [Engine.bind_apply, hget] at hs
  have hset : w.Goes (Follows diary barred) (Engine.setProperty host e r key value w).2 := by
    refine Engine.setProperty_goes hh hw value fun _ _ => hs _ ?_
    rcases Engine.setProperty host e r key value w with ⟨_ | _, w'⟩ <;> exact List.mem_cons_self
  refine hset.trans order_follows ?_
  have hw₁ := hset.staffed hw
  rw [Engine.bind_apply]
  generalize Engine.setProperty host e r key value w = done at hs hw₁
  obtain ⟨result, w₁⟩ := done
  cases result with
  | error thrown => exact herror thrown w₁ hw₁
  | ok _ => exact hok w₁ hw₁ fun x hx => hs x (List.mem_cons_of_mem _ hx)

lemma descend_goes (segments : List String)
    (hs : ∀ x ∈ (writesDown host n target segments w).1, x.Spares barred) :
    w.Goes (Follows diary barred) (descend host n target segments w).2 := by
  induction segments generalizing target w with
  | nil => exact .refl order_follows w
  | cons segment rest ih =>
    have hclosed := closed_keeps order_follows hh [] n
    refine along hw (.refl order_follows w) hs fun e w hw hs =>
      along hw ((hh.plain order_follows []).getProperty e target (.text segment) w hw (by simp)) hs
        fun got w hw hs => ?_
    cases got with
    | error thrown => exact hclosed.setException n _ w hw (by simp)
    | ok value =>
      cases ho : value.object? with
      | some inner =>
        simp only [ho] at hs ⊢
        exact ih hw hs
      | none =>
        simp only [ho] at hs ⊢
        exact along hw (.heap order_follows w _ _ (Heap.moves_newObject _).works) hs
          fun inner w hw hs => along_set hh hw hs
            (fun thrown w hw => hclosed.setException n _ w hw (by simp)) fun w hw hs => ih hw hs

lemma fill_goes (values : List Value) {array : ObjectRef} {index : Nat}
    (hs : ∀ x ∈ (writesFilling host n array index values w).1, x.Spares barred) :
    w.Goes (Follows diary barred) (fill host n array index values w).2 := by
  induction values generalizing index w with
  | nil => exact .refl order_follows w
  | cons value rest ih =>
    exact along hw (.refl order_follows w) hs fun e w hw hs => along_set hh hw hs
      (fun thrown w hw => (closed_keeps order_follows hh [] n).setException n _ w hw (by simp))
      fun w hw hs => ih hw hs

lemma arrayOf_goes {values : List Value}
    (hs : ∀ x ∈ (writesInto host n values w).1, x.Spares barred) :
    w.Goes (Follows diary barred) (arrayOf host n values w).2 := by
  refine along hw (.heap order_follows w _ _ (Heap.moves_newArray _ _).works) hs
    fun array w hw hs => (fill_goes hh hw values hs).trans order_follows ?_
  rw [Engine.bind_apply]
  split <;> exact .refl order_follows _

lemma propertyNames_goes (hs : ∀ x ∈ (writesNaming host n object w).1, x.Spares barred) :
    w.Goes (Follows diary barred) (propertyNames host n object w).2 := by
  refine along hw ((closed_keeps order_follows hh [] n).inspect object Heap.ownNames? w hw (by simp)) hs
    fun names w hw hs => ?_
  cases names with
  | none => exact .refl order_follows w
  | some names => exact arrayOf_goes hh hw hs

lemma newArrayWithValues_goes {values : List Tagged}
    (hs : ∀ x ∈ (writesValues host n values w).1, x.Spares barred) :
    w.Goes (Follows diary barred) (newArrayWithValues host n values w).2 := by
  refine along hw ((closed_keeps order_follows hh [] n).toValues values w hw (by simp)) hs
    fun found w hw hs => ?_
  cases found with
  | none => exact .refl order_follows w
  | some found => exact arrayOf_goes hh hw hs

lemma putFunction_goes {name : String} {entry : FunctionEntry}
    (hs : ∀ x ∈ ((do discard (registered n name entry); writeNow n target (.text name) :
      Act σ (List (Write σ))) w).1, x.Spares barred) :
    w.Goes (Follows diary barred) (putFunction host n target name entry w).2 := by
  have hmade : w.Goes (Follows diary barred) (registered n name entry w).2 := by
    have hclosed := closed_keeps order_follows hh [] n
    exact hclosed.bind (hclosed.register (.domain entry))
      (fun data => hclosed.onHeap fun h => h.moves_newFunction data (some name)) w hw (by simp)
  rw [putFunction, Engine.bind_apply, Engine.bind_apply]
  exact hmade.trans order_follows (write_goes hh (hmade.staffed hw) _ fun _ _ =>
    hs _ List.mem_cons_self)

lemma registerBelow_goes {segments : List String}
    {root : ObjectRef}
    (hdown : ∀ x ∈ (writesDown host n root segments.dropLast (holder n owner w).2).1,
      x.Spares barred)
    (hlast : ∀ x ∈ (writesLast host n segments ⟨f, flags, (holder n owner w).1⟩ root
      (holder n owner w).2).1, x.Spares barred) :
    w.Goes (Follows diary barred) (registerBelow host n owner segments flags f root w).2 := by
  have hheld := (closed_keeps order_follows hh [] n).holder owner w hw (by simp)
  rw [registerBelow_eq, Engine.bind_apply]
  have hw₁ := hheld.staffed hw
  refine hheld.trans order_follows
    (along hw₁ (descend_goes hh hw₁ _ hdown) hlast fun target w hw hs => ?_)
  cases target with
  | none => exact .refl order_follows w
  | some target => exact putFunction_goes hh hw hs

lemma registerCallback_goes {domain : String}
    (hs : ∀ x ∈ writesRegistering host n owner domain flags f w, x.Spares barred) :
    w.Goes (Follows diary barred) (registerCallback host n owner domain flags f w).2 := by
  rw [registerCallback_eq]
  unfold writesRegistering at hs
  cases hsegments : segments? domain with
  | none => exact .refl order_follows w
  | some segments =>
    have hreceived := (closed_keeps order_follows hh [] n).receiver owner w hw (by simp)
    simp only [hsegments] at hs
    refine hreceived.trans order_follows ?_
    have hw₁ := hreceived.staffed hw
    simp only [Engine.bind_apply]
    generalize receiver n owner w = received at hs hw₁
    obtain ⟨root, w₁⟩ := received
    cases root with
    | none => exact .refl order_follows w₁
    | some root =>
      exact registerBelow_goes hh hw₁ (fun x hx => hs x (List.mem_append_left _ hx))
        fun x hx => hs x (List.mem_append_right _ hx)

lemma perform_goes {op : Operation.Known} (hop : op.stores = true)
    (hs : ∀ x ∈ op.writes host n w, x.Spares barred) :
    w.Goes (Follows diary barred) (perform host n op w).2 := by
  cases op with
  | registerCallback owner domain flags f => exact registerCallback_goes hh hw hs
  | setGlobal key value => exact setGlobal_goes hh hw hs
  | setProperty | setPropertyValue => exact setProperty_goes hh hw hs
  | propertyNames object => exact propertyNames_goes hh hw hs
  | setIndex object index value => exact setIndex_goes hh hw hs
  | newArrayWithValues values => exact newArrayWithValues_goes hh hw hs
  | _ => exact absurd hop (by simp [Operation.stores])

end Environment

lemma Action.stores_goes {action : Action} (ha : action.stores = true)
    (hs : action.Spares barred host w) :
    w.Goes (Follows diary barred) (action.perform host w).2 := by
  cases action with
  | operate n op => exact Environment.perform_goes hh hw ha hs
  | request e r =>
    cases r with
    | set r key value =>
      have hset := Engine.setProperty_goes hh hw value fun _ _ => hs _ List.mem_cons_self
      change w.Goes (Follows diary barred) (Engine.serve host e (.set r key value) w).2
      simp only [Engine.serve, Engine.bind_apply]
      cases hdone : Engine.setProperty host e r key value w with
      | mk result w' =>
        rw [hdone] at hset
        cases result <;> exact hset
    | _ => exact absurd ha (by simp [Action.stores, Engine.Request.stores])
  | foreign env call =>
    cases hop : call.operation? env with
    | none => exact absurd ha (by simp [Action.stores, hop])
    | some pair =>
      obtain ⟨n, op⟩ := pair
      have hop' : op.stores = true := by rwa [Action.stores, hop] at ha
      rw [Action.perform_foreign hop (by rintro _ _ rfl; cases hop')]
      simp only [Action.Spares, Action.writes, hop] at hs
      exact Environment.perform_goes hh hw hop' hs
  | _ => exact absurd ha (by simp [Action.stores])

end Sparing

-- What native code may do and note down on the way, from one world to another: anything, if no
-- property is stored at a barred place.
inductive Passage (diary : σ → List (World Unit)) (barred : EngineId → Heap → ObjectRef → Key → Prop)
    (host : Host σ) (w : World σ) : World σ → Prop where
  | start : Passage diary barred host w w
  | think (w' : World σ) (s : σ) (hw : Passage diary barred host w w') (hs : w'.Notes diary s) :
      Passage diary barred host w { w' with host := s }
  | act (w' : World σ) (action : Action) (hw : Passage diary barred host w w')
      (ha : action.Spares barred host w') : Passage diary barred host w (action.perform host w').2

-- Routines that go such a passage, down to routines that only note something down.
def Host.Heedful (diary : σ → List (World Unit))
    (barred : EngineId → Heap → ObjectRef → Key → Prop) (host : Host σ) : Prop :=
  host.Built (fun _ w s => w.Notes diary s) fun inner _ w w' => Passage diary barred inner w w'

def World.Charted (diary : σ → List (World Unit))
    (barred : EngineId → Heap → ObjectRef → Key → Prop) (host : Host σ) (w : World σ) : Prop :=
  ∃ s, diary s = [] ∧ Passage diary barred host { host := s } w

def nowhere (_ : EngineId) (_ : Heap) (_ : ObjectRef) (_ : Key) : Prop := False

lemma Action.spares_nowhere (host : Host σ) (w : World σ) (action : Action) :
    action.Spares nowhere host w :=
  fun _ _ _ h => h

open World (Follows order_follows)

lemma Passage.goes {w w' : World σ} (hc : Passage diary barred host w w') (hw : w.Staffed)
    (hh : host.Keeps (Follows diary barred) fun _ => Follows diary barred) :
    w.Goes (Follows diary barred) w' := by
  induction hc with
  | start => exact .refl order_follows w
  | think w' s _ hs ih => exact ih.trans order_follows (.think w' s (.think w' hs))
  | act w' action _ ha ih =>
    have hstaffed := ih.staffed hw
    refine ih.trans order_follows (action.perform_goes order_follows hh hstaffed
      ⟨fun hs => action.stores_goes hh hstaffed hs ha, ?_, ?_, ?_, ?_⟩)
    · exact fun d _ => .modifyEngine w' d fun _ => .single .pushScope
    · exact fun d _ => .modifyEngine w' d fun _ => .single .popScope
    · rintro d slot - op (rfl | ⟨hook, rfl⟩)
      · exact .modifyEngine w' d fun _ => .single (.dispose slot)
      · exact .modifyEngine w' d fun _ => .single (.weaken slot hook)
    · exact fun d _ _ h r f hl _ =>
        .modifyEngine w' d fun _ => hl.strides.trans (h.strides_hold r (some f))

lemma Host.Heedful.keeps (hh : host.Heedful diary barred) :
    host.Keeps (Follows diary barred) fun _ => Follows diary barred := by
  refine Host.Built.keeps (fun visit w s hs => ?_) (fun host hk visit w w' hw hc => ?_) hh
  · rw [visit.relation_same]
    exact .think w hs
  · rw [visit.relation_same]
    exact hc.goes hw hk

namespace World.Charted

variable {w : World σ} (hh : host.Heedful diary barred) (hw : w.Charted diary barred host)

include hh hw

lemma pairwise_moments : (({ host := () } : World Unit) :: w.moments diary).Pairwise (Advances barred) := by
  obtain ⟨s, hs, hc⟩ := hw
  obtain ⟨more, hmore, hp⟩ := (hc.goes (regular_empty s).staffed hh.keeps).kept
  rw [hs, List.nil_append] at hmore
  rw [moments, hmore]
  exact hp

-- At every moment the heap of an engine has come by strides from a fresh one.
lemma strides (hm : m ∈ w.moments diary) (he : m.HasEngine e) :
    ∃ limits, (Heap.fresh limits).Strides (barred e) (m.engine e).heap :=
  ((List.pairwise_cons.mp (hw.pairwise_moments hh)).1 m hm).added e (by simp [HasEngine]) he

lemma shapely (hm : m ∈ w.moments diary) (he : m.HasEngine e) (hroom : (m.engine e).heap.Roomy) :
    (m.engine e).heap.WellFormed ∧ (m.engine e).heap.Shapely := by
  obtain ⟨limits, hl⟩ := hw.strides hh hm he
  exact ⟨((Heap.grown_fresh limits).leads hl.leads).wellFormed hroom, hl.shapely hroom⟩

end World.Charted

lemma World.charted_after_of_spares (host : Host σ) (hs : diary s = []) (actions : List Action)
    (ha : ∀ action ∈ actions, ∀ w, action.Spares barred host w) :
    (World.after host { host := s } actions).Charted diary barred host := by
  have hafter : ∀ w : World σ, Passage diary barred host { host := s } w →
      Passage diary barred host { host := s } (w.after host actions) := by
    induction actions with
    | nil => exact fun _ hw => hw
    | cons action rest ih =>
      rw [List.forall_mem_cons] at ha
      exact fun w hw => ih ha.2 _ (.act w action hw (ha.1 w))
  exact ⟨s, hs, hafter _ .start⟩

lemma World.charted_after (host : Host σ) (hs : diary s = []) (actions : List Action) :
    (World.after host { host := s } actions).Charted diary nowhere host :=
  charted_after_of_spares host hs actions fun action _ w => action.spares_nowhere host w

lemma World.charted_inert (s : σ) (actions : List Action) :
    (World.after Host.inert { host := s } actions).Charted (fun _ => []) nowhere Host.inert :=
  charted_after Host.inert rfl actions

lemma Host.inert_heedful : (Host.inert : Host σ).Heedful diary barred :=
  Host.inert_built fun _ _ => .inl rfl

end HostBoundary
