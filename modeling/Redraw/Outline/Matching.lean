import Redraw.Outline.Vertex
import Std.Data.TreeMap

/-!
# Matchings of vertices

Edges along one direction pair the vertices that follow each other on a line. A matching sends each
vertex to the other end of its edge.
-/

namespace Redraw.Outline

instance : Ord Point := ⟨compareLex (compareOn Point.x) (compareOn Point.y)⟩

instance : Std.TransOrd Point :=
  inferInstanceAs (Std.TransCmp (compareLex (compareOn Point.x) (compareOn Point.y)))

instance : Std.LawfulEqOrd Point where
  eq_of_compare {p q} h := by
    have h' : compareLex (compareOn Point.x) (compareOn Point.y) p q = .eq := h
    simp only [compareLex_eq_eq, compareOn, Std.LawfulEqCmp.compare_eq_iff_eq] at h'
    cases p
    cases q
    simp_all

/-- The other end of the edge at each vertex. -/
abbrev Matching := Std.TreeMap Point Point

/-- Takes points two by two as the ends of an edge; two points on different lines make none. -/
def pairUp (line : Point → Int) : List Point → List (Point × Point)
  | p :: q :: rest => if line p = line q then (p, q) :: pairUp line rest else pairUp line rest
  | _ => []

/-- The matching that leads along each edge both ways. -/
def Matching.ofEdges (edges : List (Point × Point)) : Matching :=
  edges.foldl (fun m edge => (m.insert edge.1 edge.2).insert edge.2 edge.1) ∅

def verticalMatching (vertices : List Point) : Matching := .ofEdges (pairUp Point.x vertices)

def horizontalMatching (vertices : List Point) : Matching :=
  .ofEdges (pairUp Point.y (vertices.mergeSort Point.byRow))

theorem Matching.getElem?_erase_eq (m : Matching) (p q : Point) :
    (m.erase p)[q]? = if p = q then none else m[q]? := by
  rw [Std.TreeMap.getElem?_erase]
  simp only [Std.LawfulEqCmp.compare_eq_iff_eq]

theorem Matching.getElem?_insert_eq (m : Matching) (p q v : Point) :
    (m.insert p v)[q]? = if p = q then some v else m[q]? := by
  rw [Std.TreeMap.getElem?_insert]
  simp only [Std.LawfulEqCmp.compare_eq_iff_eq]

theorem Matching.size_erase_lt (m : Matching) (p q : Point) (h : m[p]? = some q) :
    (m.erase p).size < m.size := by
  have hmem : p ∈ m := by
    rw [Std.TreeMap.mem_iff_isSome_getElem?, h]
    rfl
  have hpos : m.size ≠ 0 := by
    intro hz
    have hempty : m.isEmpty = true := by
      rw [Std.TreeMap.isEmpty_eq_size_eq_zero, hz]
      rfl
    rw [Std.TreeMap.isEmpty_iff_forall_not_mem] at hempty
    exact hempty p hmem
  rw [Std.TreeMap.size_erase, if_pos (Std.TreeMap.mem_iff_contains.mp hmem)]
  omega

end Redraw.Outline
