import PassingLisp.CommandLine.Cluster.Kind

namespace PassingLisp.CommandLine

namespace Cluster

def Kind.inSyllable : Kind → Kind → Bool
  | leading, leading | leading, vowel | leading, openSyllable | leading, closedSyllable => true
  | vowel, vowel | vowel, trailing | openSyllable, vowel | openSyllable, trailing => true
  | trailing, trailing | closedSyllable, trailing => true
  | _, _ => false

def endsInPicture (text : List Char) : Bool :=
  (text.dropWhile (Kind.of · = .extend)).head?.any (Kind.of · = .picture)

def isBridge (c : Char) : Bool :=
  c ≠ '\u200c' && (Kind.of c = .extend || Kind.of c = .joiner)

def endsInLink (text : List Char) : Bool :=
  (text.takeWhile isBridge).any isLinker
    && (text.dropWhile isBridge).head?.any (Kind.of · = .consonant)

def endsInHalfPair (text : List Char) : Bool :=
  (text.takeWhile (Kind.of · = .indicator)).length % 2 = 1

def continues : List Char → Char → Bool
  | [], _ => false
  | last :: before, c =>
      match Kind.of last, Kind.of c with
      | .control, _ | _, .control => false
      | _, .extend | _, .joiner | _, .spacing | .prepended, _ => true
      | _, .consonant => endsInLink (last :: before)
      | .joiner, .picture => endsInPicture before
      | .indicator, .indicator => endsInHalfPair (last :: before)
      | k, k' => k.inSyllable k'

def split : List Char → List Char → List (List Char)
  | cluster, [] => [cluster.reverse]
  | cluster, c :: rest =>
      if continues cluster c then split (c :: cluster) rest
      else cluster.reverse :: split [c] rest

theorem flatten_split (cluster text : List Char) :
    (split cluster text).flatten = cluster.reverse ++ text := by
  induction text generalizing cluster with
  | nil => simp [split]
  | cons c rest ih =>
      rw [split]
      split <;> simp [ih]

end Cluster

def clusters : List Char → List (List Char)
  | [] => []
  | c :: rest => Cluster.split [c] rest

@[simp] theorem flatten_clusters (text : List Char) : (clusters text).flatten = text := by
  cases text with
  | nil => rfl
  | cons c rest => simp [clusters, Cluster.flatten_split]

end PassingLisp.CommandLine
