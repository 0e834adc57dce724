import SmallLisp.Text.ClusterClass

/-!
# Clusters

A text falls into clusters, the units that a reader takes for characters. Two
neighbours are in one cluster if the later one joins what the cluster holds up
to there (`joins`).
-/

namespace SmallLisp.Text

open ClusterClass (of)

/-- Whether consonants and signs, the last one first, end in a consonant that is to be joined with
another one: signs follow it, one of which is a linker. -/
def endsLinked (before : List Char) : Bool :=
  let signs := before.takeWhile fun c => (of c).isInConjunct
  let rest := before.dropWhile fun c => (of c).isInConjunct
  signs.any (fun c => of c = .linker) && rest.head?.any fun c => of c = .consonant

/-- Whether characters, the last one first, end in a pictograph, signs on it and a joiner. -/
def endsJoined : List Char → Bool
  | [] => false
  | c :: before =>
    of c = .joiner &&
      (before.dropWhile fun c => (of c).isOnPictograph).head?.any fun c => of c = .pictograph

/-- Whether characters, the last one first, end in half a flag. -/
def endsInHalfFlag (before : List Char) : Bool :=
  (before.takeWhile fun c => of c = .regional).length % 2 == 1

/-- Whether a character joins a cluster, whose characters are given with the last one first. -/
def joins (c : Char) : List Char → Bool
  | [] => true
  | last :: before =>
    if (of last).isBreak || (of c).isBreak then of last = .carriageReturn && of c = .lineFeed
    else
      (of c).sticksBack || of last = .prepended || ClusterClass.formSyllable (of last) (of c) ||
        (of c = .consonant && endsLinked (last :: before)) ||
        (of c = .pictograph && endsJoined (last :: before)) ||
        (of c = .regional && endsInHalfFlag (last :: before))

/-- The clusters of a text that goes on after the characters of `cluster`, which are given with the
last one first. -/
def clustersFrom (cluster : List Char) : List Char → List (List Char)
  | [] => if cluster = [] then [] else [cluster.reverse]
  | c :: cs =>
    if joins c cluster then clustersFrom (c :: cluster) cs
    else cluster.reverse :: clustersFrom [c] cs

/-- The clusters of a text. -/
def clusters (cs : List Char) : List (List Char) := clustersFrom [] cs

end SmallLisp.Text
