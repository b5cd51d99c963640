import Befunge.Heading

/-! Where the headings for `?` come from. -/
namespace Befunge

/-- A source answers with a heading and with the source of all later answers. -/
class DirectionSource (σ : Type) where
  next : σ → Heading × σ

def DirectionSource.take {σ : Type} [DirectionSource σ] : Nat → σ → List Heading × σ
  | 0, source => ([], source)
  | count + 1, source =>
    let (heading, rest) := DirectionSource.next source
    let (headings, last) := take count rest
    (heading :: headings, last)

instance {σ τ : Type} [DirectionSource σ] [DirectionSource τ] : DirectionSource (σ ⊕ τ) where
  next
    | .inl source => let (heading, rest) := DirectionSource.next source; (heading, .inl rest)
    | .inr source => let (heading, rest) := DirectionSource.next source; (heading, .inr rest)

structure Script where
  headings : Array Heading
  position : Nat

namespace Script

def ofList (headings : List Heading) : Script := ⟨headings.toArray, 0⟩

/-- An empty script always answers right. -/
def next (script : Script) : Heading × Script :=
  (script.headings[script.position % script.headings.size]?.getD .right,
    {script with position := script.position + 1})

instance : DirectionSource Script := ⟨next⟩

end Script

end Befunge
