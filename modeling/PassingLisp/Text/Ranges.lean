namespace PassingLisp.Text

abbrev Ranges := List (Nat × Nat)

def Ranges.covers (rs : Ranges) (c : Char) : Bool :=
  rs.any fun r => r.1 ≤ c.toNat && c.toNat ≤ r.2

end PassingLisp.Text
