/-
Places of nodes.

A place leads from a node to one below it: it numbers the child to go on with, level by level.  Two
equal nodes of a tree are at different places.

* `Node.mem_reached_iff`: a visit that stops at certain places reaches all places that are not below
  one of them.
* `Node.pairwise_reached`: it reaches them in ascending order, which is the order of the text.
* `Node.accept_eq_after`: a visitor whose decisions are those of the places meets the nodes at the
  places reached.
-/
import Mathlib.Data.List.Sort
import Mathlib.Order.Basic
import FrontEnd.Proofs.Visit.Children

namespace FrontEnd

/-- The way from a node to one below it, by the numbers of the children on it. -/
abbrev Place := List Nat

namespace Node

/-- The node at a place below a node. -/
def at? (n : Node) : Place → Option Node
  | [] => some n
  | i :: a => n.children[i]?.bind fun c => c.at? a

/-- The places that a visit reaches if it goes below the nodes at certain places only. -/
def reached (goes : Place → Bool) (n : Node) : List Place :=
  [] :: if goes [] then
    n.children.attach.zipIdx.flatMap fun (c, i) =>
      (reached (fun a => goes (i :: a)) c.1).map (i :: ·)
  else []
termination_by sizeOf n
decreasing_by exact sizeOf_lt_of_mem_children c.2

/-- The places that a visit reaches among siblings, numbered from `k` on. -/
def reachedAmong (goes : Place → Bool) (k : Nat) (siblings : List Node) : List Place :=
  (siblings.zipIdx k).flatMap fun (c, i) => (c.reached fun a => goes (i :: a)).map (i :: ·)

variable {goes : Place → Bool} {n c : Node} {k : Nat} {siblings : List Node}

lemma reached_eq (goes : Place → Bool) (n : Node) :
    n.reached goes = [] :: if goes [] then reachedAmong goes 0 n.children else [] := by
  have hattach : n.children.zipIdx = n.children.attach.zipIdx.map (Prod.map Subtype.val id) := by
    rw [← List.zipIdx_map, List.attach_map_subtype_val]
  rw [reached, reachedAmong, hattach, List.flatMap_map]
  rfl

@[simp] lemma reachedAmong_nil : reachedAmong goes k [] = [] := rfl

lemma reachedAmong_cons : reachedAmong goes k (c :: siblings) =
    (c.reached fun a => goes (k :: a)).map (k :: ·) ++ reachedAmong goes (k + 1) siblings := rfl

lemma mem_reachedAmong_iff {a : Place} :
    a ∈ reachedAmong goes 0 siblings ↔ ∃ i c b, siblings[i]? = some c ∧
      b ∈ c.reached (fun a => goes (i :: a)) ∧ a = i :: b := by
  simp only [reachedAmong, List.mem_flatMap, List.mem_map, Prod.exists,
    List.mk_mem_zipIdx_iff_getElem?]
  constructor
  · rintro ⟨c, i, hc, b, hb, rfl⟩
    exact ⟨i, c, b, hc, hb, rfl⟩
  · rintro ⟨i, c, b, hc, hb, rfl⟩
    exact ⟨c, i, hc, b, hb, rfl⟩

/-- What holds above a place holds at the top and above the rest of the place. -/
lemma forall_prefix_cons_iff {i : Nat} {a : Place} :
    (∀ b, b <+: i :: a → b ≠ i :: a → goes b = true) ↔
      goes [] = true ∧ ∀ b, b <+: a → b ≠ a → goes (i :: b) = true := by
  constructor
  · intro h
    exact ⟨h [] (List.nil_prefix) (by simp), fun b hb hne =>
      h (i :: b) ((List.cons_prefix_cons).mpr ⟨rfl, hb⟩) (by simpa using hne)⟩
  · rintro ⟨htop, hbelow⟩ b hb hne
    rcases List.prefix_cons_iff.mp hb with rfl | ⟨b, rfl, hrest⟩
    · exact htop
    · exact hbelow b hrest (by simpa using hne)

/-- A visit reaches the places of nodes that are not below a place where it stops. -/
theorem mem_reached_iff {a : Place} : a ∈ n.reached goes ↔
    (n.at? a).isSome ∧ ∀ b, b <+: a → b ≠ a → goes b = true := by
  induction n using childrenInduction generalizing goes a with
  | step n ih =>
    rw [reached_eq, List.mem_cons]
    rcases a with _ | ⟨i, a⟩
    · simp [at?]
    rw [forall_prefix_cons_iff, at?]
    rcases hc : n.children[i]? with _ | c
    · simp [mem_reachedAmong_iff, hc]
    · have hchild := @ih c (List.mem_of_getElem? hc) (fun a => goes (i :: a)) a
      rw [Option.bind_some]
      by_cases hgoes : goes []
      · simp [hgoes, mem_reachedAmong_iff, hc, hchild]
      · simp [hgoes]

/-- The children of a node are met one after the other. -/
lemma pairwise_reachedAmong
    (h : ∀ c ∈ siblings, ∀ goes, (c.reached goes).Pairwise (· < ·)) :
    (reachedAmong goes k siblings).Pairwise (· < ·) ∧
      ∀ a ∈ reachedAmong goes k siblings, ∃ i b, a = i :: b ∧ k ≤ i := by
  induction siblings generalizing k with
  | nil => simp
  | cons c siblings ih =>
    obtain ⟨hlater, hbeyond⟩ := ih (k := k + 1) fun c hc => h c (List.mem_cons_of_mem _ hc)
    rw [reachedAmong_cons]
    refine ⟨List.pairwise_append.mpr ⟨?_, hlater, fun a ha b hb => ?_⟩, fun a ha => ?_⟩
    · refine List.pairwise_map.mpr ((h c List.mem_cons_self _).imp fun hab => ?_)
      exact List.cons_lt_cons_iff.mpr (.inr ⟨rfl, hab⟩)
    · obtain ⟨a, -, rfl⟩ := List.mem_map.mp ha
      obtain ⟨i, b, rfl, hi⟩ := hbeyond b hb
      exact List.cons_lt_cons_iff.mpr (.inl (by omega))
    · rcases List.mem_append.mp ha with ha | ha
      · obtain ⟨a, -, rfl⟩ := List.mem_map.mp ha
        exact ⟨k, a, rfl, le_refl k⟩
      · obtain ⟨i, b, rfl, hi⟩ := hbeyond a ha
        exact ⟨i, b, rfl, by omega⟩

/-- The places are reached in the order of the text. -/
theorem pairwise_reached : (n.reached goes).Pairwise (· < ·) := by
  induction n using childrenInduction generalizing goes with
  | step n ih =>
    obtain ⟨hpairwise, hcons⟩ := @pairwise_reachedAmong goes 0 n.children fun c hc goes => ih c hc
    rw [reached_eq, List.pairwise_cons]
    split
    · refine ⟨fun a ha => ?_, hpairwise⟩
      obtain ⟨i, b, rfl, -⟩ := hcons a ha
      exact List.nil_lt_cons i b
    · simp

/-! ### Visitors -/

/-- What a visit meets: the nodes at the places that it reaches, each with whether the visit goes
below it. -/
def met (goes : Place → Bool) (n : Node) : List (Node × Bool) :=
  (n.reached goes).filterMap fun a => (n.at? a).map (·, goes a)

/-- What a visit meets among siblings. -/
def metAmong (goes : Place → Bool) (k : Nat) (siblings : List Node) : List (Node × Bool) :=
  (siblings.zipIdx k).flatMap fun (c, i) => c.met fun a => goes (i :: a)

lemma metAmong_cons : metAmong goes k (c :: siblings) =
    c.met (fun a => goes (k :: a)) ++ metAmong goes (k + 1) siblings := rfl

/-- What is met among siblings is found at places of their own numbers. -/
lemma filterMap_reachedAmong (all : List Node) (hall : ∀ i c, siblings[i]? = some c → all[k + i]? = some c) :
    (reachedAmong goes k siblings).filterMap (fun a => match a with
      | [] => none
      | i :: a => (all[i]?.bind fun c => c.at? a).map (·, goes (i :: a))) =
      metAmong goes k siblings := by
  induction siblings generalizing k with
  | nil => rfl
  | cons c siblings ih =>
    have hc : all[k]? = some c := hall 0 c rfl
    rw [reachedAmong_cons, metAmong_cons, List.filterMap_append, List.filterMap_map,
      ih fun i d hd => by rw [Nat.add_assoc, Nat.add_comm 1]; exact hall (i + 1) d hd]
    congr 1
    simp only [met, Function.comp_def, hc, Option.bind_some]

lemma met_eq (goes : Place → Bool) (n : Node) :
    n.met goes = (n, goes []) :: if goes [] then metAmong goes 0 n.children else [] := by
  rw [met, reached_eq, List.filterMap_cons_some (b := (n, goes [])) (by simp [at?])]
  congr 1
  split
  · rw [← filterMap_reachedAmong n.children fun i c hc => by rwa [Nat.zero_add]]
    refine List.filterMap_congr fun a ha => ?_
    obtain ⟨i, c, b, -, -, rfl⟩ := mem_reachedAmong_iff.mp ha
    rfl
  · rfl

end Node

namespace Visitor

variable {σ : Type} (v : Visitor σ)

/-- The state after the nodes of a list. -/
def after (s : σ) (met : List (Node × Bool)) : σ :=
  met.foldl (fun s m => (v.meet s m.1).1) s

/-- Whether the decisions of a visitor on the nodes of a list, met one after the other, are the ones
that the list gives. -/
def Decides (s : σ) : List (Node × Bool) → Prop
  | [] => True
  | (n, goes) :: later => (v.meet s n).2 = goes ∧ Decides (v.meet s n).1 later

lemma decides_append_iff {s : σ} {met later : List (Node × Bool)} :
    v.Decides s (met ++ later) ↔ v.Decides s met ∧ v.Decides (v.after s met) later := by
  induction met generalizing s with
  | nil => simp [Decides, after]
  | cons m met ih => simp [Decides, ih, after, and_assoc]

lemma after_append {s : σ} {met later : List (Node × Bool)} :
    v.after s (met ++ later) = v.after (v.after s met) later :=
  List.foldl_append

end Visitor

namespace Node

variable {σ : Type} {v : Visitor σ} {goes : Place → Bool}

lemma acceptAll_eq_after {siblings : List Node} {k : Nat} {s : σ}
    (h : ∀ c ∈ siblings, ∀ goes s, v.Decides s (c.met goes) → c.accept v s = v.after s (c.met goes))
    (hdecides : v.Decides s (metAmong goes k siblings)) :
    acceptAll v siblings s = v.after s (metAmong goes k siblings) := by
  induction siblings generalizing k s with
  | nil => rfl
  | cons c siblings ih =>
    rw [metAmong_cons, Visitor.decides_append_iff] at hdecides
    rw [metAmong_cons, Visitor.after_append, acceptAll_cons, h c List.mem_cons_self _ s hdecides.1]
    exact ih (fun c hc => h c (List.mem_cons_of_mem _ hc)) hdecides.2

/-- A visitor that goes below the nodes at certain places only meets the nodes at the places that are
reached so. -/
theorem accept_eq_after {n : Node} {s : σ} (h : v.Decides s (n.met goes)) :
    n.accept v s = v.after s (n.met goes) := by
  induction n using childrenInduction generalizing goes s with
  | step n ih =>
    rw [met_eq] at h ⊢
    obtain ⟨hgoes, hbelow⟩ := h
    rw [accept_eq, Visitor.enter]
    change (if (v.meet s n).2 = true then acceptAll v n.children (v.meet s n).1 else (v.meet s n).1) = _
    rw [hgoes]
    split
    next htrue =>
      rw [if_pos htrue] at hbelow
      exact acceptAll_eq_after (fun c hc goes s => ih c hc) hbelow
    · rfl

end Node

end FrontEnd
