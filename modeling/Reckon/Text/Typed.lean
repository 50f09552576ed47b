import Reckon.Text.Cluster

/-!
Text as it stands after typing. A backspace is taken out together with the cluster before it, as far
as that cluster's size is known: sizes are kept in one byte each.
-/
namespace Reckon.Text

/-- What is on the line, and the size of each cluster on it in bytes, the latest first. -/
structure Typed where
  kept : List Char
  sizes : List UInt8
deriving DecidableEq, Repr

namespace Typed

def empty : Typed := ⟨[], []⟩

def backspace : List Char := ['\x08']

def byteCount (cluster : List Char) : UInt8 :=
  UInt8.ofNat (cluster.foldl (fun count character => count + character.utf8Size) 0)

/-- Takes away the latest characters, as many as fit into a number of bytes. -/
def takeBack (bytes : Nat) : List Char → List Char
  | [] => []
  | character :: earlier =>
    if character.utf8Size ≤ bytes then takeBack (bytes - character.utf8Size) earlier
    else character :: earlier

def type (typed : Typed) (cluster : List Char) : Typed :=
  if cluster = backspace then
    match typed.sizes with
    | [] => typed
    | size :: sizes => ⟨takeBack size.toNat typed.kept, sizes⟩
  else ⟨cluster.reverse ++ typed.kept, byteCount cluster :: typed.sizes⟩

end Typed

def typed (line : List Char) : List Char :=
  ((clusters line).foldl Typed.type .empty).kept.reverse

namespace Typed

private theorem kept_foldl_type (clusters : List (List Char)) (start : Typed)
    (absent : ∀ cluster ∈ clusters, cluster ≠ backspace) :
    (clusters.foldl type start).kept = clusters.flatten.reverse ++ start.kept := by
  induction clusters generalizing start with
  | nil => rfl
  | cons cluster later ih =>
    have kept : (start.type cluster).kept = cluster.reverse ++ start.kept := by
      simp only [type, absent cluster List.mem_cons_self, if_false]
    rw [List.foldl_cons, ih _ fun other member => absent other (List.mem_cons_of_mem _ member),
      kept, List.flatten_cons, List.reverse_append, List.append_assoc]

end Typed

theorem typed_of_not_mem {line : List Char} (absent : '\x08' ∉ line) : typed line = line := by
  have plain : ∀ cluster ∈ clusters line, cluster ≠ Typed.backspace := by
    intro cluster member equal
    apply absent
    rw [← flatten_clusters line]
    exact List.mem_flatten.mpr ⟨cluster, member, equal ▸ List.mem_singleton_self _⟩
  rw [typed, Typed.kept_foldl_type _ _ plain, flatten_clusters]
  simp only [Typed.empty, List.append_nil, List.reverse_reverse]

end Reckon.Text
