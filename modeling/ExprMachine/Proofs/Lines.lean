import Mathlib.Data.List.Basic
import Mathlib.Data.String.Basic

/-! # Lines of text

Texts in which no line ends, and longer texts that are made of such lines. The lines of
a text can be told apart again, since a newline stands at the end of each and nowhere
else. -/

namespace ExprMachine

/-- Nothing in the text ends a line. -/
def OneLine (text : String) : Prop :=
  ∀ char ∈ text.toList, char ≠ '\n' ∧ char ≠ '\r'

theorem oneLine_append_iff {first second : String} :
    OneLine (first ++ second) ↔ OneLine first ∧ OneLine second := by
  simp only [OneLine, String.toList_append, List.forall_mem_append]

theorem oneLine_iff {text : String} :
    OneLine text ↔ '\n' ∉ text.toList ∧ '\r' ∉ text.toList := by
  constructor
  · intro oneLine
    exact ⟨fun member => (oneLine _ member).1 rfl, fun member => (oneLine _ member).2 rfl⟩
  · intro absent char member
    exact ⟨fun feed => absent.1 (feed ▸ member), fun carriage => absent.2 (carriage ▸ member)⟩

theorem OneLine.not_mem_newline {text : String} (oneLine : OneLine text) :
    '\n' ∉ text.toList :=
  (oneLine_iff.mp oneLine).1

theorem isDigit_of_mem_toString {number : Nat} {char : Char}
    (member : char ∈ (toString number).toList) : char.isDigit := by
  rw [Nat.toString_eq_repr, Nat.repr_eq_ofList_toDigits, String.toList_ofList] at member
  exact Nat.isDigit_of_mem_toDigits (by decide) (by decide) member

theorem oneLine_toString (number : Nat) : OneLine (toString number) := by
  intro char member
  have digit := isDigit_of_mem_toString member
  constructor <;> rintro rfl <;> cases digit

theorem toString_injective : Function.Injective (toString : Nat → String) := by
  intro first second same
  simp only [Nat.toString_eq_ofList_toDigits] at same
  have digits : Nat.toDigits 10 first = Nat.toDigits 10 second := String.ofList_injective same
  rw [← @Nat.ofDigitChars_ten_toDigits first, digits, Nat.ofDigitChars_ten_toDigits]

/-- The lines one after another, each with a newline at its end. -/
def unlines (lines : List String) : String :=
  String.join (lines.map (· ++ "\n"))

theorem unlines_append (first second : List String) :
    unlines (first ++ second) = unlines first ++ unlines second := by
  rw [unlines, List.map_append, String.join_append, unlines, unlines]

theorem unlines_singleton (line : String) : unlines [line] = line ++ "\n" :=
  String.empty_append

theorem toList_unlines_cons (line : String) (lines : List String) :
    (unlines (line :: lines)).toList = line.toList ++ '\n' :: (unlines lines).toList := by
  simp [unlines, String.toList_join]

theorem mem_unlines_iff {lines : List String} {char : Char} :
    char ∈ (unlines lines).toList ↔ ∃ line ∈ lines, char ∈ line.toList ∨ char = '\n' := by
  simp [unlines, String.toList_join, List.flatMap_map]

theorem unlines_cons_ne_nil (line : String) (lines : List String) :
    unlines (line :: lines) ≠ unlines [] := by
  intro same
  have empty := congrArg String.toList same
  simp [unlines] at empty

theorem eq_of_append_newline_eq {first second rest other : List Char}
    (plain : '\n' ∉ first) (otherPlain : '\n' ∉ second)
    (same : first ++ '\n' :: rest = second ++ '\n' :: other) :
    first = second ∧ rest = other := by
  rcases List.append_eq_append_iff.mp same with
    ⟨middle, rfl, continued⟩ | ⟨middle, rfl, continued⟩
  all_goals
    cases middle with
    | nil =>
        rw [List.nil_append, List.cons.injEq] at continued
        simp [continued.2]
    | cons char middle =>
        rw [List.cons_append, List.cons.injEq] at continued
        simp [← continued.1] at plain otherPlain

theorem eq_of_unlines_eq {lines others : List String}
    (plain : ∀ line ∈ lines, '\n' ∉ line.toList)
    (otherPlain : ∀ line ∈ others, '\n' ∉ line.toList)
    (same : unlines lines = unlines others) : lines = others := by
  induction lines generalizing others with
  | nil =>
      cases others with
      | nil => rfl
      | cons other others => exact absurd same.symm (unlines_cons_ne_nil other others)
  | cons line lines induction =>
      cases others with
      | nil => exact absurd same (unlines_cons_ne_nil line lines)
      | cons other others =>
          rcases List.forall_mem_cons.mp plain with ⟨linePlain, linesPlain⟩
          rcases List.forall_mem_cons.mp otherPlain with ⟨otherLinePlain, othersPlain⟩
          have chars := congrArg String.toList same
          rw [toList_unlines_cons, toList_unlines_cons] at chars
          rcases eq_of_append_newline_eq linePlain otherLinePlain chars with
            ⟨sameLine, sameRest⟩
          rw [String.toList_injective sameLine,
            induction linesPlain othersPlain (String.toList_injective sameRest)]

end ExprMachine
