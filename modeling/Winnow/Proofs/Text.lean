/-
  Texts written line by line.

  A `Line` can stand on a line of its own, and stays one when another is put after it.
  Lines written with either line end are read back, whatever text follows them.
-/
import Winnow.Text.Basic

namespace Winnow.Text

/-- What ends a line. -/
inductive LineEnd where
  | feed
  | returnFeed
deriving DecidableEq

def LineEnd.text : LineEnd → String
  | feed => "\n"
  | returnFeed => "\r\n"

/-- A text without a line feed, and without a carriage return that would count as part
    of the line's end. -/
structure Line where
  text : String
  noFeed : '\n' ∉ text.toList := by decide
  noReturn : text.toList.getLast? ≠ some '\r' := by decide

namespace Line

instance : Append Line where
  append a b :=
    { text := a.text ++ b.text
      noFeed := by simp [a.noFeed, b.noFeed]
      noReturn := by
        rw [String.toList_append, List.getLast?_append]
        cases hb : b.text.toList.getLast? with
        | none => simpa using a.noReturn
        | some c => simpa [hb] using b.noReturn }

@[simp] theorem text_append (a b : Line) : (a ++ b).text = a.text ++ b.text := rfl

end Line

/-- The lines, the `i`-th of them ended by `ends i`. -/
def written (ends : Nat → LineEnd) : List Line → String
  | [] => ""
  | l :: ls => l.text ++ (ends 0).text ++ written (fun i => ends (i + 1)) ls

/-! ## Reading lines back -/

variable {l : List Char}

/-- A character belongs to the first line unless a line ends there. -/
theorem linesOf_cons {c : Char} {cs : List Char} {ls : List (List Char)} (hfeed : c ≠ '\n')
    (hreturn : c = '\r' → cs.head? ≠ some '\n') (h : linesOf cs = l :: ls) :
    linesOf (c :: cs) = (c :: l) :: ls := by
  rw [linesOf]
  · rw [h]
  · exact hfeed
  · rintro rest rfl rfl
    exact hreturn rfl rfl

/-- What follows the line's characters matters only in how it ends the line. -/
theorem linesOf_append {tail : List Char} {ls : List (List Char)} (hfeed : '\n' ∉ l)
    (hreturn : l.getLast? = some '\r' → tail.head? ≠ some '\n') (h : linesOf tail = [] :: ls) :
    linesOf (l ++ tail) = l :: ls := by
  induction l with
  | nil => exact h
  | cons c l ih =>
    have hc : c ≠ '\n' := fun hc => hfeed (hc ▸ List.mem_cons_self)
    have hl : '\n' ∉ l := fun hl => hfeed (List.mem_cons_of_mem _ hl)
    cases l with
    | nil => exact linesOf_cons hc (fun hr => hreturn (by simp [hr])) h
    | cons d l =>
      have hd : d ≠ '\n' := fun hd => hl (hd ▸ List.mem_cons_self)
      refine linesOf_cons hc (fun _ => by simpa using hd) (ih hl ?_)
      intro hlast
      exact hreturn (by rw [List.getLast?_cons_cons]; exact hlast)

theorem linesOf_line (l : Line) (e : LineEnd) (rest : List Char) :
    linesOf (l.text.toList ++ e.text.toList ++ rest) = l.text.toList :: linesOf rest := by
  rw [List.append_assoc]
  refine linesOf_append l.noFeed (fun h => absurd h l.noReturn) ?_
  cases e with
  | feed => change linesOf ('\n' :: rest) = _; rw [linesOf]
  | returnFeed => change linesOf ('\r' :: '\n' :: rest) = _; rw [linesOf]

/-- The last line needs no end. -/
theorem linesOf_last (hne : l ≠ []) (hfeed : '\n' ∉ l) : linesOf l = [l] := by
  induction l with
  | nil => exact absurd rfl hne
  | cons c l ih =>
    have hc : c ≠ '\n' := fun hc => hfeed (hc ▸ List.mem_cons_self)
    have hl : '\n' ∉ l := fun hl => hfeed (List.mem_cons_of_mem _ hl)
    cases l with
    | nil => simp [linesOf]
    | cons d l =>
      have hd : d ≠ '\n' := fun hd => hl (hd ▸ List.mem_cons_self)
      exact linesOf_cons hc (fun _ => by simpa using hd) (ih (by simp) hl)

theorem lines_written (ends : Nat → LineEnd) (ls : List Line) (rest : String) :
    lines (written ends ls ++ rest) = ls.map Line.text ++ lines rest := by
  induction ls generalizing ends with
  | nil => simp [written]
  | cons l ls ih =>
    have step := linesOf_line l (ends 0) ((written (fun i => ends (i + 1)) ls ++ rest).toList)
    simp only [lines, String.toList_append, List.append_assoc] at ih step ⊢
    simp only [written, String.toList_append, List.append_assoc, step, List.map_cons,
      String.ofList_toList, List.cons_append, ih]

end Winnow.Text
