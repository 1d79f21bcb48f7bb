import ApiManual.Markdown
import ApiManual.Proofs.Text.Edges

/-!
# Printed documents

Blocks that stand together in a document stand together in its text, and an empty line or
an end of the text is on both sides of them.
-/

namespace ApiManual
namespace Markdown

def Block.isHeading : Block → Bool
  | .heading _ _ => true
  | _ => false

/-- The blocks are printed one after the other, from the beginning of a paragraph to the
end of one. -/
def Shows (text : Text) (blocks : Document) : Prop :=
  ∃ front back, text = front ++ (Text.join ['\n', '\n'] (blocks.map Block.render) ++ '\n' :: back) ∧
    (front = [] ∨ ['\n', '\n'] <:+ front)

theorem exists_lead_join (separator : Text) (front : List Text) {parts : List Text}
    (hparts : parts ≠ []) :
    ∃ lead, Text.join separator (front ++ parts) = lead ++ Text.join separator parts ∧
      (lead = [] ∨ separator <:+ lead) := by
  by_cases hfront : front = []
  · exact ⟨[], by simp [hfront], Or.inl rfl⟩
  · refine ⟨Text.join separator front ++ separator, ?_, Or.inr (List.suffix_append _ _)⟩
    rw [Text.join_append hfront hparts, List.append_assoc]

theorem exists_tail_join {parts : List Text} (hparts : parts ≠ []) (back : List Text) :
    ∃ tail, Text.join ['\n', '\n'] (parts ++ back) ++ ['\n'] =
      Text.join ['\n', '\n'] parts ++ '\n' :: tail := by
  by_cases hback : back = []
  · exact ⟨[], by simp [hback]⟩
  · refine ⟨'\n' :: (Text.join ['\n', '\n'] back ++ ['\n']), ?_⟩
    rw [Text.join_append hparts hback]
    simp

theorem shows_of_infix {blocks document : Document} (hne : blocks ≠ [])
    (h : blocks <:+: document) : Shows document.render blocks := by
  obtain ⟨front, back, rfl⟩ := h
  have hparts : blocks.map Block.render ≠ [] := by simpa using hne
  obtain ⟨lead, hlead, hends⟩ := exists_lead_join ['\n', '\n']
    (front.map Block.render) (List.append_ne_nil_of_left_ne_nil hparts (back.map Block.render))
  obtain ⟨tail, htail⟩ := exists_tail_join hparts (back.map Block.render)
  have hrender : Document.render (front ++ blocks ++ back) =
      Text.join ['\n', '\n'] (front.map Block.render ++
        (blocks.map Block.render ++ back.map Block.render)) ++ ['\n'] := by
    simp [Document.render, hne]
  refine ⟨lead, tail, ?_, hends⟩
  rw [hrender, hlead, List.append_assoc, htail]

theorem Block.infix_render_heading (level : ℕ) (text : Text) :
    text <:+: (Block.heading level text).render := by
  have htail : text <:+ ' ' :: text := List.suffix_cons _ _
  exact (htail.trans (List.suffix_append _ _)).isInfix

theorem Shows.head_infix {text : Text} {b : Block} {blocks : Document}
    (h : Shows text (b :: blocks)) : b.render <:+: text := by
  obtain ⟨front, back, htext, -⟩ := h
  cases blocks with
  | nil =>
      rw [List.map_cons, List.map_nil, Text.join_singleton] at htext
      exact ⟨front, '\n' :: back, by rw [htext, List.append_assoc]⟩
  | cons next blocks =>
      rw [List.map_cons, List.map_cons, Text.join_cons_cons, List.append_assoc] at htext
      exact ⟨front, _, by rw [htext, List.append_assoc]⟩

end Markdown

end ApiManual
