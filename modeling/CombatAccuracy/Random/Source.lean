/-!
# Random sources

A source answers each draw with a number and the source to draw from next, so a source is a value
and a replay is a second run from the same one. A scripted source answers from a list and remembers
what it was asked.
-/
namespace CombatAccuracy

/-- States that numbers below a bound can be drawn from. -/
class RandomSource (σ : Type) where
  draw : UInt32 → σ → UInt32 × σ

/-- Answers to come, and the bounds asked for so far, oldest first. -/
structure Script where
  answers : List UInt32
  bounds : List UInt32 := []
  deriving DecidableEq

/-- A script answers in turn, whatever the bound, and 0 once it has ended. -/
instance : RandomSource Script where
  draw bound script :=
    (script.answers.headD 0, ⟨script.answers.tail, script.bounds ++ [bound]⟩)

/-- Numbers below a bound drawn one after another. -/
def RandomSource.drawMany {σ : Type} [RandomSource σ] (bound : UInt32) : Nat → σ → List UInt32 × σ
  | 0, source => ([], source)
  | count + 1, source =>
    let (first, source) := draw bound source
    let (others, source) := drawMany bound count source
    (first :: others, source)

namespace RandomSource
variable {σ : Type} [RandomSource σ]

theorem drawMany_succ (bound : UInt32) (count : Nat) (source : σ) :
    drawMany bound (count + 1) source =
      ((draw bound source).1 :: (drawMany bound count (draw bound source).2).1,
        (drawMany bound count (draw bound source).2).2) :=
  rfl

theorem length_drawMany (bound : UInt32) (count : Nat) (source : σ) :
    (drawMany bound count source).1.length = count := by
  induction count generalizing source with
  | zero => rfl
  | succ count ih => rw [drawMany_succ, List.length_cons, ih]

end RandomSource
end CombatAccuracy
