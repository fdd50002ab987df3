import HostBoundary.Proofs.Traversal

namespace HostBoundary

open Act (Evolving)

variable {σ : Type} {host : Host σ}

namespace Act.Evolving

lemma minor : Act.Minor fun act : Act σ _ => Evolving act where
  pure x := .pure x
  bind h hnext := .bind h hnext
  read _ w := .refl w
  update n _ hf := .updateEnvironment n (fun env => (hf env).engine) fun env => (hf env).tables
  detach e _ hf := .updateEngine e fun engine => (hf engine).heap

end Act.Evolving

namespace Host.Conforming

open Act.Evolving (minor)

lemma frame (hc : host.Conforming) : Act.Frame host fun act => Evolving act where
  toMinor := minor
  moves e _ hf := .onHeap e fun h => (hf h).leads
  collectGarbage e := minor.collect_of hc.release hc.reclaim (.onHeap e fun _ => .op .collect trivial)
  reap e := minor.reap_of hc.release (.updateEngine e fun _ => rfl)
    (.onHeap e fun _ => .op .drainReleases trivial)

lemma visits (hc : host.Conforming) (n : EnvironmentId) :
    Act.Visits host n fun act => Evolving act where
  toGround := hc.frame.toGround
  function code := hc.function code n
  getter code := hc.getter code n
  setter code := hc.setter code n
  foreignFunction code _ := hc.foreignFunction code _
  foreignGetter code _ := hc.foreignGetter code _
  foreignSetter code _ := hc.foreignSetter code _

end Host.Conforming

namespace Environment

lemma attach_evolving (e : EngineId) : Evolving (attach e : Act σ EnvironmentId) := by
  refine .bind .get fun w => ?_
  split
  · exact (Evolving.minor.acquire _).bind fun _ => .pure _
  · refine .bind (fun w => World.Evolves.addEnvironment w _) fun n =>
      .bind (.updateEngine e fun _ => rfl) fun _ => (Evolving.minor.acquire n).bind fun _ => .pure n

lemma negotiate_evolving (e : EngineId) (version : Int32) :
    Evolving (negotiate e version : Act σ (Option ForeignEnvironment)) := by
  unfold negotiate
  split
  · exact (attach_evolving e).returning _
  · exact .pure none

end Environment

namespace Engine

lemma attachFinalizer_evolving (e : EngineId) (target : ObjectRef) (finalizer : ReclaimHook) :
    Evolving (Act.updateHeap e (Environment.attachFinalizer target finalizer) : Act σ Unit) :=
  .updateHeap e fun h => (Environment.quietly_attachFinalizer target finalizer h).leads

variable (hc : host.Conforming)

include hc

lemma dispatch_evolving (e : EngineId) (data : CallbackData) (i : Invocation) :
    Evolving (dispatch host e data i) := by
  refine .bind (.returning .get _) fun dispatcher => ?_
  split
  · exact Evolving.returning (.onHeap e fun h => (h.moves_newError _ _).leads) _
  · refine .bind (.updateHeap e fun h => .op .pushScope trivial) fun _ => .bind ?_ fun _ =>
      .bind ((hc.visits _).dispatch data i fun _ => attachFinalizer_evolving) fun completion => .bind ?_ fun _ =>
        .bind (.updateHeap e fun h => ?_) fun _ => .pure completion
    · exact .updateEnvironment _ (fun _ => rfl) fun _ => rfl
    · exact .updateEnvironment _ (fun _ => rfl) fun _ => rfl
    · have hpop : h.Leads h.popScope.2 := .op .popScope trivial
      dsimp only
      split
      · exact hpop.trans (Heap.discreetly_root _ _).leads
      · exact hpop.trans (Heap.discreetly_root _ _).leads
      · exact hpop

lemma basis : Act.Basis host fun act => Evolving act where
  toFrame := hc.frame
  dispatch e data i _ := dispatch_evolving hc e data i
  construct := hc.frame.construct (dispatch_evolving hc)

lemma plain : Act.Plain host fun act => Evolving act where
  toBasis := basis hc
  works e _ hf := .onHeap e fun h => (hf h).leads

lemma setting_evolving : Act.Setting host fun act => Evolving act :=
  (basis hc).setting fun e _ hf => .onHeap e fun h => (hf h).discreetly.leads

lemma popScope_evolving (e : EngineId) : Evolving (popScope host e) := by
  refine .bind (.onHeap e fun h => .op .popScope trivial) fun due => ?_
  split
  · exact hc.frame.collectGarbage e
  · exact .pure ()

end Engine

end HostBoundary
