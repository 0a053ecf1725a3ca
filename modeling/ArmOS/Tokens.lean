import Mathlib.Tactic

/-!
Texts that are cut at a separator: the pieces between separators that are not
empty, and the text in which every piece follows a separator. Cutting undoes the
second.
-/
namespace ArmOS.Tokens
open List

universe u
variable {Letter : Type u} [DecidableEq Letter] {separator : Letter}

/-- The pieces of a text that are not empty. -/
def tokens (separator : Letter) (text : List Letter) : List (List Letter) :=
  (text.splitOnP (fun c => c == separator)).filter (fun piece => !piece.isEmpty)

/-- The text with a separator before every piece. -/
def render (separator : Letter) (pieces : List (List Letter)) : List Letter :=
  pieces.flatMap (fun piece => separator :: piece)
def Token (separator : Letter) (piece : List Letter) : Prop := piece ≠ [] ∧ separator ∉ piece

omit [DecidableEq Letter] in
@[simp] theorem render_nil : render separator [] = [] := rfl

omit [DecidableEq Letter] in
theorem render_append (first second : List (List Letter)) :
    render separator (first ++ second) = render separator first ++ render separator second := flatMap_append

omit [DecidableEq Letter] in
theorem render_single (piece : List Letter) : render separator [piece] = separator :: piece := by simp [render]

omit [DecidableEq Letter] in
theorem render_cons (piece : List Letter) (pieces : List (List Letter)) :
    render separator (piece :: pieces) = separator :: piece ++ render separator pieces := by simp [render]

@[simp] theorem tokens_nil : tokens separator [] = [] := rfl
theorem tokens_append_separator (first second : List Letter) :
    tokens separator (first ++ separator :: second) = tokens separator first ++ tokens separator second := by
  unfold tokens
  rw [splitOnP_append_cons _ _ (by simp),filter_append]
theorem tokens_separator (text : List Letter) : tokens separator (separator :: text) = tokens separator text :=
  tokens_append_separator [] text

theorem tokens_of_token {piece : List Letter} (token : Token separator piece) : tokens separator piece = [piece] := by
  have whole : piece.splitOnP (fun c => c == separator) = [piece] := by
    refine splitOnP_eq_singleton (fun c member => ?_)
    simp only [beq_eq_false_iff_ne]
    rintro rfl
    exact token.2 member
  unfold tokens
  rw [whole]
  simp [token.1]

variable {pieces : List (List Letter)}

/-- Cutting a text that ends in rendered pieces gives these pieces at the end. -/
theorem tokens_append_render (text : List Letter) (all : ∀ piece ∈ pieces, Token separator piece) :
    tokens separator (text ++ render separator pieces) = tokens separator text ++ pieces := by
  induction pieces generalizing text with
  | nil => simp
  | cons piece rest ih =>
    obtain ⟨here,later⟩ := forall_mem_cons.mp all
    rw [render_cons,cons_append,tokens_append_separator,ih piece later,tokens_of_token here]
    simp

theorem tokens_mem {text piece : List Letter} (member : piece ∈ tokens separator text) : Token separator piece := by
  have apart : ∀ text : List Letter, ∀ p ∈ text.splitOnP (fun c => c == separator), separator ∉ p := by
    intro text
    induction text with
    | nil => simp
    | cons c rest ih =>
      rw [splitOnP_cons_eq_if_modifyHead]
      split
      · intro p
        rw [mem_cons]
        rintro (rfl | later)
        · simp
        · exact ih p later
      rename_i other
      have other : c ≠ separator := by simpa using other
      cases pieces : rest.splitOnP (fun c => c == separator) with
      | nil => simp
      | cons first more =>
        rw [pieces] at ih
        intro p
        rw [modifyHead_cons,mem_cons]
        grind
  obtain ⟨inside,nonempty⟩ := mem_filter.mp member
  exact ⟨by simpa using nonempty,apart text piece inside⟩

end ArmOS.Tokens

