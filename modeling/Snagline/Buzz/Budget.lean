import Snagline.Buzz.World

/-!
# The retry budget

A failure raises the count in the record of its fact, and the record is parked when the
count reaches the limit. The count lives in a record that preparation and supersession build
anew. So a failing pass counts where its saves are taken, a stored event of the fact is not
answered as expired and absent, and a first event is only published while the count is zero.
-/

namespace Snagline.Buzz
open Kit Ssp

/-! ### Answers -/

structure Counted (limit : ℕ) (d d' : Delivery) : Prop where
  attempts : d'.attempts = d.attempts + 1
  poison : d'.status = .poison ↔ limit ≤ d'.attempts
  lastError : d'.lastError ≠ none

/-- The record of the fact was built anew. -/
structure Built (f : CommittedFact) (st st' : State) : Prop where
  checkpoint : st'.checkpoint = st.checkpoint
  others : ∀ s, s ≠ f.sequence → st'.recordAt s = st.recordAt s
  attempts : (st'.recordAt f.sequence).attempts = 0

section Walk
variable {p : Projector} {rules : Rules} {f : CommittedFact} {st : State} {k : ℕ} {c : Site}
  {allows : ℕ → Except Fault Unit → Prop} {counts : Prop}

theorem Built.setRoot {st' : State} (h : Built f st st') (caseID root : Bytes) :
    Built f st (st'.setRoot caseID root) := ⟨h.checkpoint, h.others, h.attempts⟩

end Walk

/-! ### Series of failing passes -/

section
variable {p : Projector} {rules : Rules} {f : CommittedFact} {c c' : Site} {n : ℕ}

end

/-! ### Worlds in which a fact fails -/

namespace World

variable (w : World) (p : Projector)

variable {w p} {rules : Rules} {f : CommittedFact} {c : Site} {limit : ℕ}

end World

namespace Sample

/-- The case goes out, the advice never. -/
def deafWorld : World := world fun n => if n = 0 then .ok () else .error (.error (text "u"))

def advised : CommittedFact := ⟨2, text "j", text "k", adviceRaw⟩
def deaf : Site → Site := deafWorld.pass (projector 2 two_positive) 2
@[irreducible] def stopped : Site := deaf {}
@[irreducible] def exhausted : Site := deaf stopped

end Sample

namespace Sample

end Sample

end Snagline.Buzz
