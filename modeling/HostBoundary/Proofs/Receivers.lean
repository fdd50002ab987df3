import HostBoundary.Proofs.CallTransport
import HostBoundary.Proofs.RawHandles
import HostBoundary.Proofs.StaleHandles

namespace HostBoundary

open Handle

variable {handle : Handle}

namespace Heap

-- The object that a word stands for where zero has a meaning: the global object for zero, and
-- for any other word the live object that it denotes.
def selected? (h : Heap) (word : UInt64) : Option ObjectRef :=
  if word = 0 then some (h.global.getD default)
  else (Handle.ofRaw? word).bind fun handle => (h.resolveHandle handle).1

lemma receiver?_ofRaw? (h : Heap) {word : UInt64} (hword : word = 0 ∨ 2 ^ 33 ≤ word.toNat) :
    h.receiver? (ofRaw? word) = h.selected? word := by
  rcases hword with rfl | hword
  · rfl
  · have hne : word ≠ 0 := by
      rintro rfl
      exact absurd hword (by decide)
    cases hread : ofRaw? word with
    | none =>
      have := (ofRaw?_eq_none word).mp hread
      omega
    | some handle => simp [selected?, receiver?, hne, hread]

end Heap

variable {σ : Type} {n : EnvironmentId}

namespace World.Lends

variable {handles others : List Handle} {w w' : World σ}

lemma of_stale (hl : Lends n (handles ++ others) w w')
    (hstale : ∀ handle ∈ others, (w.heapOf n).Stale handle) : Lends n handles w w' := by
  obtain ⟨rs, hrs, heq⟩ := hl
  refine ⟨rs, fun r hr => ?_, heq⟩
  obtain ⟨handle, hmem, hdenoted⟩ := hrs r hr
  rcases List.mem_append.mp hmem with hmem | hmem
  · exact ⟨handle, hmem, hdenoted⟩
  · rw [(hstale handle hmem).denoted] at hdenoted
    cases hdenoted

lemma eq_of_nil (hl : Lends n [] w w') : w' = w := by
  obtain ⟨rs, hrs, rfl⟩ := hl
  cases rs with
  | nil => exact w.lend_nil n
  | cons r _ =>
    obtain ⟨handle, hmem, -⟩ := hrs r (by simp)
    cases hmem

end World.Lends

namespace Environment

lemma inert_receiver (function handle : Handle) (args : List Tagged) (flags : Flags) :
    Act.Inert n ([function] ++ [handle]) none
      fun host : Host σ => callFunction host n function (some handle) args flags :=
  (Act.Looks.resolve n function).andThen (fun _ _ => rfl) fun _ =>
    (Act.Looks.resolve n handle).inert.andThen fun _ _ => rfl

end Environment

namespace Foreign

-- Nothing comes of a word as a receiver or an owner: no routine is run, and nothing is put
-- anywhere.
structure Refused (w : World σ) (env : ForeignEnvironment) (x : UInt64) : Prop where
  call : ∀ f args out flags, ∃ w', World.Lends env.environment (Handle.ofRaw? f).toList w w' ∧
    ∀ host, perform host (some env) (.callFunction f x args out flags) w = (.out false .null, w')
  register : ∀ domain f flags host,
    perform host (some env) (.registerCallback x domain f flags) w = (.boolean false, w)

-- A word stands for this object: what can be called is called on it, and what can be registered is
-- put below it.
structure Selects (w : World σ) (env : ForeignEnvironment) (x : UInt64) (r : ObjectRef) : Prop where
  call : ∀ {f args function tagged g values}, env.surface = .full →
    Handle.ofRaw? f = some function → readValues args = some tagged →
    ((w.heapOf env.environment).resolveHandle function).1 = some g →
    tagged.mapM (w.heapOf env.environment).valueOf? = some values → ∀ out flags,
    ∃ w', w.Rerooted (w.environment env.environment).engine w' ∧
      ∀ host, perform host (some env) (.callFunction f x args out flags) w =
        (writeValue out <$> (Engine.call host (w.environment env.environment).engine g (.object r)
          values >>= Environment.deliver env.environment flags)) w'
  register : ∀ {domain : ForeignText} {path segments}, domain.text? = some path →
    Environment.segments? path = some segments → ∀ code flags,
    ∃ w', w.Rerooted (w.environment env.environment).engine w' ∧
      ∀ host, perform host (some env) (.registerCallback x domain (some code) flags) w =
        (Answer.boolean <$> Environment.registerBelow host env.environment (Handle.ofRaw? x) segments
          flags ⟨code, some env.surface⟩ r) w'

variable (w : World σ) (env : ForeignEnvironment)

lemma perform_callFunction (host : Host σ) (hfull : env.surface = .full) {f : UInt64}
    {function : Handle} (hf : ofRaw? f = some function) {args : Arguments (Option WireValue)}
    {values : List Tagged} (hargs : readValues args = some values) (out : Bool) (flags : Flags) :
    perform host (some env) (.callFunction f x args out flags) = (do
      return writeValue out (← Environment.callFunction host env.environment function
        (ofRaw? x) values flags)) := by
  simp [perform, withObject, withFull, fullEnvironment, hfull, hf, hargs]

lemma callFunction_refused (hx : ofRaw? x = some handle)
    (hstale : (w.heapOf env.environment).Stale handle) (f : UInt64)
    (args : Arguments (Option WireValue)) (out : Bool) (flags : Flags) :
    ∃ w', World.Lends env.environment (ofRaw? f).toList w w' ∧
      ∀ host, perform host (some env) (.callFunction f x args out flags) w =
        (.out false .null, w') := by
  -- What does not get as far as the call changes nothing at all.
  have hearly : (∀ host : Host σ, perform host (some env) (.callFunction f x args out flags) =
      pure (.out false .null)) → ∃ w', World.Lends env.environment (ofRaw? f).toList w w' ∧
      ∀ host, perform host (some env) (.callFunction f x args out flags) w =
        (.out false .null, w') := by
    intro hpure
    refine ⟨w, .refl w _, fun host => ?_⟩
    rw [hpure]
    rfl
  by_cases hfull : env.surface = .full
  · cases hf : ofRaw? f with
    | none =>
      rw [hf] at hearly
      exact hearly fun host => by simp [perform, withObject, withFull, fullEnvironment, hfull, hf]
    | some function =>
      cases hargs : readValues args with
      | none =>
        rw [hf] at hearly
        exact hearly fun host => by
          simp [perform, withObject, withFull, fullEnvironment, hfull, hf, hargs]
      | some values =>
        obtain ⟨w', hlends, hdone⟩ := (Environment.inert_receiver function handle values
          flags).returning (writeValue out) w ⟨handle, by simp, hstale⟩
        refine ⟨w', hlends.of_stale (by simpa using hstale), fun host => ?_⟩
        rw [perform_callFunction env host hfull hf hargs, hx]
        exact hdone host
  · exact hearly fun host => by simp [perform, withObject, withFull, fullEnvironment, hfull]

lemma registerCallback_refused (hx : ofRaw? x = some handle)
    (hstale : (w.heapOf env.environment).Stale handle) (domain : ForeignText) (f : Option Code)
    (flags : Flags) (host : Host σ) :
    perform host (some env) (.registerCallback x domain f flags) w = (.boolean false, w) := by
  simp only [perform, registerCallback, hx]
  cases domain.text? with
  | none => rfl
  | some domain =>
    cases f with
    | none => rfl
    | some code =>
      obtain ⟨w', hlends, hdone⟩ := (Environment.inert_registerCallback env.environment
        (some handle) domain flags ⟨code, some env.surface⟩).returning Answer.boolean w
        ⟨handle, by simp, hstale⟩
      obtain rfl : w' = w := (World.Lends.of_stale hlends (by simpa using hstale)).eq_of_nil
      exact hdone host

variable {w env} {x : UInt64}

lemma refused_of_none (hgrown : (w.heapOf env.environment).Grown)
    (hnone : (w.heapOf env.environment).receiver? (ofRaw? x) = none) : Refused w env x := by
  cases hx : ofRaw? x with
  | none =>
    rw [hx] at hnone
    cases hnone
  | some handle =>
    rw [hx] at hnone
    have hstale := (hgrown.stale_iff handle).mpr hnone
    exact ⟨callFunction_refused w env hx hstale, registerCallback_refused w env hx hstale⟩

lemma selects_of_some {r : ObjectRef}
    (hsome : (w.heapOf env.environment).receiver? (ofRaw? x) = some r) :
    Selects w env x r where
  call {f args function tagged g values} hfull hf hargs hg hvalues out flags := by
    obtain ⟨w', hr, hcall⟩ :=
      Environment.callFunction_eq w rfl function (ofRaw? x) tagged flags
    have hrequest : (w.heapOf env.environment).request? function (ofRaw? x) tagged =
        some (g, r, values) := by
      simp [Heap.request?, hg, hsome, hvalues]
    refine ⟨w', hr, fun host => ?_⟩
    rw [perform_callFunction env host hfull hf hargs, Engine.bind_apply, hcall, hrequest]
    rfl
  register {domain path segments} hpath hsegments code flags := by
    obtain ⟨hroot, hr⟩ := Environment.receiver_spec w rfl (ofRaw? x)
    refine ⟨_, hr, fun host => ?_⟩
    simp only [perform, registerCallback, hpath, Environment.registerCallback_eq, hsegments]
    rw [Engine.bind_apply, Engine.bind_apply, hroot, hsome]
    rfl

end Foreign

-- Zero stands for the global object, and a word with a generation for the live object that it
-- denotes, if there is one.
theorem foreign_receiver_and_owner (w : World σ) (env : ForeignEnvironment)
    (hgrown : (w.heapOf env.environment).Grown) (x : UInt64) :
    (x = 0 ∨ 2 ^ 33 ≤ x.toNat → match (w.heapOf env.environment).selected? x with
      | none => Foreign.Refused w env x
      | some r => Foreign.Selects w env x r) ∧
    (x.toNat < 2 ^ 33 →
      Foreign.Selects w env x ((w.heapOf env.environment).global.getD default)) := by
  refine ⟨fun hx => ?_, fun hx => ?_⟩
  · rw [← Heap.receiver?_ofRaw? _ hx]
    split <;> rename_i hreceiver
    · exact Foreign.refused_of_none hgrown hreceiver
    · exact Foreign.selects_of_some hreceiver
  · refine Foreign.selects_of_some ?_
    rw [(ofRaw?_eq_none x).mpr hx]
    rfl

-- The word of the collected object is refused. Zero is the global object, and so is the bare
-- ownership bit.
theorem foreign_receiver_and_owner_of_collected :
    let env : ForeignEnvironment := ⟨⟨0⟩, .full⟩
    let word := (Handle.transient (.first 2)).raw
    (oneCollected.heapOf ⟨0⟩).Grown ∧ (oneCollected.heapOf ⟨0⟩).selected? word = none ∧
    Foreign.Refused oneCollected env word ∧
    (oneCollected.heapOf ⟨0⟩).selected? 0 = some (.first 0) ∧
    Foreign.Selects oneCollected env 0 (.first 0) ∧ Foreign.Selects oneCollected env 1 (.first 0) := by
  intro env word
  have hword : (oneCollected.heapOf ⟨0⟩).selected? word = none := by cbv
  have hzero : (oneCollected.heapOf ⟨0⟩).selected? 0 = some (.first 0) := by cbv
  have hglobal : (oneCollected.heapOf ⟨0⟩).global.getD default = .first 0 := by cbv
  have hrefused := (foreign_receiver_and_owner oneCollected env oneCollected_grown word).1
    (.inr (by decide))
  have hselects := (foreign_receiver_and_owner oneCollected env oneCollected_grown 0).1 (.inl rfl)
  have hbare := (foreign_receiver_and_owner oneCollected env oneCollected_grown 1).2 (by decide)
  simp only [show env.environment = ⟨0⟩ from rfl, hword, hzero, hglobal] at hrefused hselects hbare
  exact ⟨oneCollected_grown, hword, hrefused, hzero, hselects, hbare⟩

def notingReceivers : Host (List UInt64) :=
  { Host.inert with
    foreignFunction := fun _ _ this _ => do
      modify fun w => { w with host := this :: w.host }
      return (true, .null) }

def foreignFunctionMade : World (List UInt64) :=
  World.after notingReceivers { host := [] }
    [.newEngine {}, .attach ⟨0⟩, .operate ⟨0⟩ (.newFunction 0 ⟨⟨0⟩, some .full⟩)]

def calledOnBareBit : Foreign.Answer × World (List UInt64) :=
  Foreign.perform notingReceivers (some ⟨⟨0⟩, .full⟩)
    (.callFunction (Handle.transient (.first 1)).raw 1 {} true 0) foreignFunctionMade

def registeredOnBareBit : Foreign.Answer × World (List UInt64) :=
  Foreign.perform notingReceivers (some ⟨⟨0⟩, .full⟩)
    (.registerCallback 1 (some [102]) (some ⟨0⟩) 0) calledOnBareBit.2

-- That bit denotes nothing, and yet the routine has run on the global object and is put there.
theorem bare_ownership_bit_selects_global :
    Handle.ofRaw? 1 = none ∧ calledOnBareBit.1 = .out true .null ∧
    calledOnBareBit.2.host = [(Handle.transient (.first 0)).raw] ∧
    registeredOnBareBit.1 = .boolean true ∧
    (Environment.getGlobal notingReceivers ⟨0⟩ (.utf8 "f") 0 calledOnBareBit.2).1 = some .null ∧
    (Environment.getGlobal notingReceivers ⟨0⟩ (.utf8 "f") 0 registeredOnBareBit.2).1 =
      some (.object .function (.transient (.first 2))) := by
  exact ⟨by cbv, by cbv, by cbv, by cbv, by cbv, by cbv⟩

end HostBoundary
