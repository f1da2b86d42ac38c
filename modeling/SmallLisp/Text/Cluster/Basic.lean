import SmallLisp.Text.Cluster.Class

/-!
# Clusters: what a reader takes for one character

An accented letter may be two characters, a flag is two, a family may be five. A
*cluster* is a run of characters that a reader takes for one, after the rules for
extended grapheme clusters of Unicode. A text is cut into clusters from left to right,
and whether the next character still belongs to the current cluster depends on that
cluster alone: every rule that looks back further than one character looks at
characters that are in the same cluster.

* `SmallLisp.joins` – whether a character belongs to the cluster before it;
* `SmallLisp.clusters` – **the clusters of a text**;
* `SmallLisp.flatten_clusters` – nothing is lost.
-/

namespace SmallLisp

/-! ### Rules that look back

The characters of the current cluster are given with the latest first. -/

/-- After a consonant and marks with a linker among them, the next consonant belongs to
the same conjunct. -/
def endsInLinkedConsonant (cluster : List Char) : Bool :=
  (cluster.takeWhile isConjunctMark).any isLinker &&
    (cluster.dropWhile isConjunctMark).head?.map clusterClass = some .consonant

/-- The cluster ends in a pictograph, which may have marks on it. -/
def endsInPictograph (cluster : List Char) : Bool :=
  (cluster.dropWhile (clusterClass · = .mark)).head?.map clusterClass = some .pictograph

/-- The last letter of the name of a region is still without its partner. -/
def endsInHalfRegion (cluster : List Char) : Bool :=
  (cluster.takeWhile (clusterClass · = .regional)).length % 2 = 1

/-! ### Cutting a text -/

/-- **Whether a character belongs to the cluster before it**, whose characters are
given with the latest first. -/
def joins (cluster : List Char) (c : Char) : Bool :=
  match cluster with
  | [] => true
  | last :: before =>
    let left := clusterClass last
    let right := clusterClass c
    if left.standsAlone || right.standsAlone then
      left = .carriageReturn && right = .lineFeed
    else
      right.attaches || left = .leadingSign || left.sameSyllable right ||
        (right = .consonant && endsInLinkedConsonant cluster) ||
        (right = .pictograph && left = .joiner && endsInPictograph before) ||
        (right = .regional && endsInHalfRegion cluster)

/-- The clusters of a text after the characters of a first one, latest first. -/
def clustersFrom (cluster : List Char) : List Char → List (List Char)
  | [] => if cluster = [] then [] else [cluster.reverse]
  | c :: cs =>
    if joins cluster c then clustersFrom (c :: cluster) cs
    else cluster.reverse :: clustersFrom [c] cs

/-- **The clusters of a text.** -/
def clusters (cs : List Char) : List (List Char) := clustersFrom [] cs

theorem flatten_clustersFrom (cluster cs : List Char) :
    (clustersFrom cluster cs).flatten = cluster.reverse ++ cs := by
  fun_induction clustersFrom cluster cs <;> simp_all

/-- **Nothing is lost.** -/
@[simp]
theorem flatten_clusters (cs : List Char) : (clusters cs).flatten = cs := by
  simp [clusters, flatten_clustersFrom]

/-- The characters of a cluster are characters of the text. -/
theorem mem_of_mem_clusters {cs cluster : List Char} {c : Char} (h : cluster ∈ clusters cs)
    (hc : c ∈ cluster) : c ∈ cs := by
  rw [← flatten_clusters cs]
  exact List.mem_flatten.2 ⟨cluster, h, hc⟩

end SmallLisp
