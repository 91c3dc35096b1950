namespace PassingLisp.Text

def holds (piece : List Char) : List Char → Bool
  | [] => piece.isEmpty
  | c :: cs => piece.isPrefixOf (c :: cs) || holds piece cs

theorem holds_iff {piece text : List Char} : holds piece text = true ↔ piece <:+: text := by
  induction text with
  | nil => simp [holds]
  | cons c cs ih => simp [holds, ih, List.infix_cons_iff]

end PassingLisp.Text
