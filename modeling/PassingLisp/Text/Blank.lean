namespace PassingLisp.Text

def isBlank (c : Char) : Bool :=
  c = ' ' || c = '\t' || c = '\r' || c = '\n'

def skipBlank (input : List Char) : List Char :=
  input.dropWhile isBlank

def isSpace (c : Char) : Bool :=
  let n := c.toNat
  (0x9 ≤ n && n ≤ 0xd) || n == 0x20 || n == 0x85 || n == 0xa0 || n == 0x1680
    || (0x2000 ≤ n && n ≤ 0x200a) || n == 0x2028 || n == 0x2029 || n == 0x202f
    || n == 0x205f || n == 0x3000

def trim (text : List Char) : List Char :=
  ((text.dropWhile isSpace).reverse.dropWhile isSpace).reverse

theorem isSpace_of_isBlank {c : Char} (h : isBlank c = true) : isSpace c = true := by
  simp only [isBlank, Bool.or_eq_true, decide_eq_true_eq] at h
  rcases h with ((rfl | rfl) | rfl) | rfl <;> decide

@[simp] theorem skipBlank_nil : skipBlank [] = [] := rfl

theorem skipBlank_cons (c : Char) (cs : List Char) :
    skipBlank (c :: cs) = if isBlank c then skipBlank cs else c :: cs := by
  simp only [skipBlank, List.dropWhile_cons]

theorem skipBlank_length_le (input : List Char) : (skipBlank input).length ≤ input.length :=
  (List.dropWhile_suffix _).length_le

def byteLength (text : List Char) : Nat :=
  text.foldr (fun c n => c.utf8Size + n) 0

@[simp] theorem byteLength_nil : byteLength [] = 0 := rfl

@[simp] theorem byteLength_cons (c : Char) (cs : List Char) :
    byteLength (c :: cs) = c.utf8Size + byteLength cs := rfl

theorem byteLength_append (a b : List Char) :
    byteLength (a ++ b) = byteLength a + byteLength b := by
  induction a with
  | nil => simp
  | cons c cs ih =>
      rw [List.cons_append, byteLength_cons, byteLength_cons, ih]
      omega

end PassingLisp.Text
