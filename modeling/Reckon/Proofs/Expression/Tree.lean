/-!
# Proofs/Expression/Tree — trees and their postorder

The postorder of a tree lists its children from left to right and then the node (`Tree.postorder`).
It is **all a renaming of the labels acts on** (`Tree.postorder_map`).
-/

namespace Reckon

/-- A label above any number of trees. -/
inductive Tree (ν : Type) where
  | node (label : ν) (children : List (Tree ν))

namespace Tree

variable {ν μ : Type}

mutual

/-- The labels of a tree, those of the children from left to right before that of the node. -/
def postorder : Tree ν → List ν
  | node a ts => postorderAll ts ++ [a]

/-- The labels of trees, one tree after the other. -/
def postorderAll : List (Tree ν) → List ν
  | [] => []
  | t :: ts => postorder t ++ postorderAll ts

end

mutual

/-- The tree with `f a` in the place of each label `a`. -/
def map (f : ν → μ) : Tree ν → Tree μ
  | node a ts => node (f a) (mapAll f ts)

/-- The trees with `f a` in the place of each label `a`. -/
def mapAll (f : ν → μ) : List (Tree ν) → List (Tree μ)
  | [] => []
  | t :: ts => map f t :: mapAll f ts

end

@[simp] theorem postorder_node (a : ν) (ts : List (Tree ν)) :
    (node a ts).postorder = postorderAll ts ++ [a] := by rw [postorder]

@[simp] theorem postorderAll_nil : postorderAll ([] : List (Tree ν)) = [] := by rw [postorderAll]

@[simp] theorem postorderAll_cons (t : Tree ν) (ts : List (Tree ν)) :
    postorderAll (t :: ts) = t.postorder ++ postorderAll ts := by rw [postorderAll]

@[simp] theorem postorderAll_append (ts us : List (Tree ν)) :
    postorderAll (ts ++ us) = postorderAll ts ++ postorderAll us := by
  induction ts with
  | nil => simp
  | cons t ts ih => simp [ih]

theorem postorder_ne_nil (t : Tree ν) : t.postorder ≠ [] := by
  obtain ⟨a, ts⟩ := t
  simp

@[simp] theorem map_node (f : ν → μ) (a : ν) (ts : List (Tree ν)) :
    (node a ts).map f = node (f a) (mapAll f ts) := by rw [map]

@[simp] theorem mapAll_nil (f : ν → μ) : mapAll f [] = [] := by rw [mapAll]

@[simp] theorem mapAll_cons (f : ν → μ) (t : Tree ν) (ts : List (Tree ν)) :
    mapAll f (t :: ts) = t.map f :: mapAll f ts := by rw [mapAll]

theorem mapAll_eq_map (f : ν → μ) (ts : List (Tree ν)) : mapAll f ts = ts.map (map f) := by
  induction ts with
  | nil => simp
  | cons t ts ih => simp [ih]

theorem map_eq_node_iff {f : ν → μ} {t : Tree ν} {b : μ} {us : List (Tree μ)} :
    t.map f = node b us ↔ ∃ a ts, t = node a ts ∧ f a = b ∧ ts.map (map f) = us := by
  obtain ⟨a, ts⟩ := t
  rw [map_node, mapAll_eq_map, node.injEq]
  constructor
  · intro h
    exact ⟨a, ts, rfl, h⟩
  · rintro ⟨a', ts', heq, h⟩
    obtain ⟨rfl, rfl⟩ := node.inj heq
    exact h

mutual

theorem map_map {ξ : Type} (f : ν → μ) (h : μ → ξ) :
    ∀ t : Tree ν, (t.map f).map h = t.map fun a => h (f a)
  | node a ts => by rw [map_node, map_node, map_node, mapAll_mapAll f h ts]

theorem mapAll_mapAll {ξ : Type} (f : ν → μ) (h : μ → ξ) :
    ∀ ts : List (Tree ν), mapAll h (mapAll f ts) = mapAll (fun a => h (f a)) ts
  | [] => by simp
  | t :: ts => by rw [mapAll_cons, mapAll_cons, mapAll_cons, map_map f h t, mapAll_mapAll f h ts]

end

mutual

/-- **Renaming the labels renames the postorder.** -/
theorem postorder_map (f : ν → μ) : ∀ t : Tree ν, (t.map f).postorder = t.postorder.map f
  | node a ts => by
    rw [map_node, postorder_node, postorder_node, List.map_append, postorderAll_map f ts,
      List.map_singleton]

theorem postorderAll_map (f : ν → μ) :
    ∀ ts : List (Tree ν), postorderAll (mapAll f ts) = (postorderAll ts).map f
  | [] => by simp
  | t :: ts => by
    rw [mapAll_cons, postorderAll_cons, postorderAll_cons, List.map_append, postorder_map f t,
      postorderAll_map f ts]

end

end Tree

end Reckon
