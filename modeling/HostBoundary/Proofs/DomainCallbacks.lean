import HostBoundary.Proofs.PropertyNames

namespace HostBoundary

open Act

variable {σ τ : Type} {n : EnvironmentId} {e : EngineId} {domain : String} {segments : List String}
  {r root : ObjectRef} {seen : List ObjectRef} {o : HeapObject} {v : Value} {w : World σ}

namespace Heap

variable {h h' : Heap} {t : ObjectRef} {key : Key}

-- The objects that a path leads through, one for each segment.
def trail (h : Heap) : ObjectRef → List String → Option (List ObjectRef)
  | _, [] => some []
  | r, segment :: rest =>
    match h.lookup r (.ofName segment) with
    | .value (.object x) => (h.trail x rest).map (x :: ·)
    | _ => none

end Heap

section Acts

variable {host : Host σ} {h h' : Heap} {t : ObjectRef} {segment : String}

namespace Environment

end Environment

end Acts

variable {host : Host σ} {diary : σ → List (World Unit)}

end HostBoundary
