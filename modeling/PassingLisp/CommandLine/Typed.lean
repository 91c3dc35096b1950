import PassingLisp.Text.Blank
import PassingLisp.CommandLine.Cluster

namespace PassingLisp.CommandLine

def keptSize (cluster : List Char) : Nat :=
  Text.byteLength cluster % 256

def withoutLast : Nat → List Char → List Char
  | _, [] => []
  | size, c :: text => if c.utf8Size ≤ size then withoutLast (size - c.utf8Size) text else c :: text

def typedAfter (sizes : List Nat) (text : List Char) : List (List Char) → List Char
  | [] => text.reverse
  | cluster :: rest =>
      if cluster = ['\x08'] then
        match sizes with
        | [] => typedAfter [] text rest
        | size :: sizes => typedAfter sizes (withoutLast size text) rest
      else typedAfter (keptSize cluster :: sizes) (cluster.reverse ++ text) rest

def typed (line : List Char) : List Char :=
  typedAfter [] [] (clusters line)

theorem typedAfter_of_not_mem {clusters : List (List Char)} (h : '\x08' ∉ clusters.flatten)
    (sizes : List Nat) (text : List Char) :
    typedAfter sizes text clusters = text.reverse ++ clusters.flatten := by
  induction clusters generalizing sizes text with
  | nil => simp [typedAfter]
  | cons cluster rest ih =>
      rw [List.flatten_cons, List.mem_append, not_or] at h
      have hc : cluster ≠ ['\x08'] := by
        rintro rfl
        simp at h
      unfold typedAfter
      rw [if_neg hc, ih h.2]
      simp

theorem typed_eq_self {line : List Char} (h : '\x08' ∉ line) : typed line = line := by
  rw [typed, typedAfter_of_not_mem (by simpa using h)]
  simp

end PassingLisp.CommandLine
