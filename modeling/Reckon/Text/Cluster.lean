import Reckon.Text.Cluster.Ranges

/-!
Clusters: what a reader takes for one character, such as a letter with its marks, a syllable block
or a flag. Whether two neighbours belong together depends on them and on what stands before them.
-/
namespace Reckon.Text

namespace Cluster

/-- The part a character plays. A syllable block is a leading consonant with a vowel, and it is
closed when it has a trailing consonant as well. -/
inductive Kind where
  | control | carriageReturn | lineFeed
  | extender | linker | separator | joiner
  | spacing | preposed
  | leading | vowel | trailing | openBlock | closedBlock
  | regional | pictograph | consonant
  | other
deriving DecidableEq, Repr

namespace Kind

def ofChar (character : Char) : Kind :=
  let code := character.toNat
  if 0x20 ≤ code ∧ code < 0x7f then .other
  else if code = 0x0d then .carriageReturn
  else if code = 0x0a then .lineFeed
  else if code = 0x200c then .separator
  else if code = 0x200d then .joiner
  else if 0xac00 ≤ code ∧ code ≤ 0xd7a3 then
    if (code - 0xac00) % 28 = 0 then .openBlock else .closedBlock
  else if controls.has code then .control
  else if linkers.has code then .linker
  else if extenders.has code then .extender
  else if spacings.has code then .spacing
  else if openers.has code then .preposed
  else if leadings.has code then .leading
  else if vowels.has code then .vowel
  else if trailings.has code then .trailing
  else if regionals.has code then .regional
  else if pictographs.has code then .pictograph
  else if consonants.has code then .consonant
  else .other

def isControl : Kind → Bool
  | .control | .carriageReturn | .lineFeed => true
  | _ => false

/-- Marks that go with whatever they follow, and let a pictograph before them reach a joiner. -/
def isMark : Kind → Bool
  | .extender | .linker | .separator => true
  | _ => false

/-- What may stand between the consonants of a conjunct. -/
def isWithinConjunct : Kind → Bool
  | .extender | .linker | .joiner => true
  | _ => false

end Kind

/-- Whether a consonant would join a conjunct, by the kinds before it, the closest first. -/
def endsInLinker (before : List Kind) : Bool :=
  let marks := before.takeWhile Kind.isWithinConjunct
  marks.contains .linker && (before.drop marks.length).head? = some .consonant

/-- Whether a pictograph would be joined to another one. -/
def endsInJoiner : List Kind → Bool
  | .joiner :: before => (before.dropWhile Kind.isMark).head? = some .pictograph
  | _ => false

/-- Whether a regional letter would be the second of its pair. -/
def endsInHalfFlag (before : List Kind) : Bool :=
  (before.takeWhile (· = .regional)).length % 2 = 1

/-- Whether a character of some kind belongs to the cluster of the one before it. The kinds before
it come closest first. -/
def joins (before : List Kind) (next : Kind) : Bool :=
  match before.head?, next with
  | none, _ => false
  | some .carriageReturn, .lineFeed => true
  | some last, next =>
    if last.isControl || next.isControl then false
    else
      match last, next with
      | .leading, .leading | .leading, .vowel | .leading, .openBlock | .leading, .closedBlock => true
      | .openBlock, .vowel | .openBlock, .trailing | .vowel, .vowel | .vowel, .trailing => true
      | .closedBlock, .trailing | .trailing, .trailing => true
      | .preposed, _ => true
      | _, .joiner | _, .spacing => true
      | _, .consonant => endsInLinker before
      | _, .pictograph => endsInJoiner before
      | _, .regional => endsInHalfFlag before
      | _, next => next.isMark

def attach (character : Char) : List (List Char) → List (List Char)
  | [] => [[character]]
  | cluster :: later => (character :: cluster) :: later

/-- The clusters of some characters, given the kinds of those before them, the closest first. -/
def clustersBehind (before : List Kind) : List Char → List (List Char)
  | [] => []
  | character :: rest =>
    let before := Kind.ofChar character :: before
    let later := clustersBehind before rest
    if rest.head?.any fun next => joins before (Kind.ofChar next) then attach character later
    else [character] :: later

end Cluster

def clusters (text : List Char) : List (List Char) :=
  Cluster.clustersBehind [] text

namespace Cluster

private theorem flatten_attach (character : Char) (clusters : List (List Char)) :
    (attach character clusters).flatten = character :: clusters.flatten := by
  cases clusters with
  | nil => rfl
  | cons cluster later => rfl

private theorem flatten_clustersBehind (before : List Kind) (text : List Char) :
    (clustersBehind before text).flatten = text := by
  induction text generalizing before with
  | nil => rfl
  | cons character rest ih =>
    simp only [clustersBehind]
    split
    · rw [flatten_attach, ih]
    · rw [List.flatten_cons, ih, List.singleton_append]

end Cluster

theorem flatten_clusters (text : List Char) : (clusters text).flatten = text :=
  Cluster.flatten_clustersBehind [] text

end Reckon.Text
