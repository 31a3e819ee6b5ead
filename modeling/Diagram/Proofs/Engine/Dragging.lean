import Diagram.Proofs.Composing
import Diagram.Proofs.Engine.Moving
import Diagram.Proofs.Engine.Picking
import Diagram.Proofs.Scene.Carrying

namespace Diagram

variable {α : Type}

namespace Engine

section Steps

variable [Arith α]

/-- Where every move leads to the state of the point that it goes to, only the last one is seen. -/
theorem run_moves {f : Point α → Engine α} (hf : ∀ q r, (f q).next? (.move r) = some (f r))
    (q : Point α) (path : List (Point α)) :
    (f q).run? (path.map .move) = some (f (path.getLastD q)) := by
  induction path generalizing q with
  | nil => rfl
  | cons r path ih =>
    rw [List.map_cons, run?_cons_of_next (hf q r), ih, List.getLastD_cons]

end Steps

end Engine

variable [ExactArith α]

namespace Offset

end Offset

namespace Point

theorem sub_self (p : Point α) : p - p = Offset.zero := by
  ext
  · simp [Offset.zero]
  · simp [Offset.zero]

end Point

namespace Viewport

end Viewport

namespace Engine

variable {e e' : Engine α}

end Engine

end Diagram
