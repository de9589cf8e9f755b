/-!
# Splitting text at a separator

Every header format of the library is cut at single characters: the trace parent at `-`, the
trace state at `,`, the cloud trace header at `;` and `=`, baggage at `,`, `;` and `=`. The four
ways of cutting differ only at the ends of the text, and each format names the one it uses.

* `pieces` cuts at every separator; an empty text is one empty piece.
* `piecesTerminated` treats a separator at the end as closing the last piece.
* `splitOnce` cuts at the first separator only.
* `piecesUpTo` cuts at most so often that a given number of pieces results.
-/

namespace TracePropagation.Text

/-- The pieces between the separators, in order. There is always one piece more than there are
separators, so an empty text is one empty piece. -/
def pieces (sep : Char) (cs : List Char) : List (List Char) :=
  cs.splitOn sep

/-- The pieces between the separators, less a last piece that is empty: a separator at the end
closes the last piece instead of opening a new one, and an empty text has no pieces. -/
def piecesTerminated (sep : Char) (cs : List Char) : List (List Char) :=
  let ps := pieces sep cs
  match ps.getLast? with
  | some [] => ps.dropLast
  | _ => ps

/-- The text before the first separator and the text after it, if there is a separator. -/
def splitOnce (sep : Char) : List Char → Option (List Char × List Char)
  | [] => none
  | c :: rest =>
    if c = sep then some ([], rest)
    else (splitOnce sep rest).map fun p => (c :: p.1, p.2)

/-- At most `n` pieces: the first `n - 1` separators cut, and the last piece keeps the rest of
the text, separators included. -/
def piecesUpTo (sep : Char) : Nat → List Char → List (List Char)
  | 0, _ => []
  | 1, cs => [cs]
  | n + 2, cs =>
    match splitOnce sep cs with
    | none => [cs]
    | some (a, b) => a :: piecesUpTo sep (n + 1) b

@[simp] theorem splitOnce_nil (sep : Char) : splitOnce sep [] = none := rfl

/-- Cutting once and joining the two sides at the separator gives the text back. -/
theorem splitOnce_eq_some {sep : Char} {cs a b : List Char} (h : splitOnce sep cs = some (a, b)) :
    cs = a ++ sep :: b ∧ sep ∉ a := by
  induction cs generalizing a b with
  | nil => simp at h
  | cons c rest ih =>
    simp only [splitOnce] at h
    split at h
    · rename_i hc
      simp only [Option.some.injEq, Prod.mk.injEq] at h
      obtain ⟨rfl, rfl⟩ := h
      simp [hc]
    · rename_i hc
      obtain ⟨⟨a', b'⟩, hp, he⟩ := Option.map_eq_some_iff.1 h
      simp only [Prod.mk.injEq] at he
      obtain ⟨rfl, rfl⟩ := he
      obtain ⟨h1, h2⟩ := ih hp
      refine ⟨by simp [h1], ?_⟩
      simp only [List.mem_cons, not_or]
      exact ⟨fun h => hc h.symm, h2⟩

example : pieces ',' [] = [[]] := by decide
example : piecesTerminated '-' "a-b-".toList = ["a".toList, "b".toList] := by decide
example : piecesTerminated '-' [] = [] := by decide
example : piecesUpTo '-' 3 "1-a-b-c".toList = ["1".toList, "a".toList, "b-c".toList] := by decide

end TracePropagation.Text
