/-
Visits are complete.

`Root.visit_complete`: a visit meets the node at every place of a text once, before the nodes below
it; where it does not go below certain nodes, just the nodes below those are left out.
-/
import FrontEnd.Proofs.Visit.Places
import FrontEnd.Proofs.Visit.Recorder

namespace FrontEnd

open Node

/-! ### What a recorder writes down -/

namespace Visitor

variable {goesBelow : List Node → Node → Bool}

lemma after_recorder (written : List Node) (met : List (Node × Bool)) :
    (recorder goesBelow).after written met = written ++ met.map (·.1) := by
  induction met generalizing written with
  | nil => exact (List.append_nil written).symm
  | cons m met ih =>
    rw [after, List.foldl_cons, ← after, ih, List.map_cons]
    exact List.append_assoc written [m.1] _

/-- A recorder decides on a node from what it wrote down before. -/
lemma decides_recorder {written : List Node} {met : List (Node × Bool)}
    (h : ∀ k m, met[k]? = some m →
      goesBelow (written ++ (met.take k).map (·.1)) m.1 = m.2) :
    (recorder goesBelow).Decides written met := by
  induction met generalizing written with
  | nil => trivial
  | cons m met ih =>
    have hm : goesBelow written m.1 = m.2 := by simpa using h 0 m rfl
    refine ⟨hm, ih fun k m' hk => ?_⟩
    have hlater := h (k + 1) m' hk
    rwa [List.take_succ_cons, List.map_cons, List.append_cons] at hlater

end Visitor

/-! ### The places of a text -/

/-- The node at a place below another one. -/
lemma Node.at?_append (n : Node) (a b : Place) : n.at? (a ++ b) = (n.at? a).bind (·.at? b) := by
  induction a generalizing n with
  | nil => rfl
  | cons i a ih => simp [at?, ih, Option.bind_assoc]

namespace Root

variable {root : Root} {goes : Place → Bool}

/-- The node at a place of a text. -/
def at? (root : Root) : Place → Option Node
  | [] => none
  | i :: a => root.children[i]?.bind fun c => c.at? a

/-- The places of a text that a visit reaches if it goes below the nodes at certain places only. -/
def reached (goes : Place → Bool) (root : Root) : List Place :=
  reachedAmong goes 0 root.children

/-- What is above a node of a text is a node. -/
lemma isSome_at?_above {a b : Place} (ha : (root.at? a).isSome) (hb : b ≠ []) (h : b <+: a) :
    (root.at? b).isSome := by
  obtain ⟨c, rfl⟩ := h
  rcases b with _ | ⟨i, b⟩
  · exact absurd rfl hb
  · simp only [at?, List.cons_append, Node.at?_append] at ha ⊢
    rcases hc : root.children[i]? with _ | child
    · simp [hc] at ha
    · rw [hc, Option.bind_some] at ha
      exact Option.isSome_of_isSome_bind ha

/-- A visit reaches the places of nodes that are not below a node where it stops. -/
lemma mem_reached_iff {a : Place} : a ∈ root.reached goes ↔
    (root.at? a).isSome ∧ ∀ b, b ≠ [] → b <+: a → b ≠ a → goes b = true := by
  rw [reached, mem_reachedAmong_iff]
  rcases a with _ | ⟨i, a⟩
  · simp [at?]
  have habove : (∀ b, b ≠ [] → b <+: i :: a → b ≠ i :: a → goes b = true) ↔
      ∀ b, b <+: a → b ≠ a → goes (i :: b) = true := by
    refine ⟨fun h b hb hne => h (i :: b) (List.cons_ne_nil i b)
      (List.cons_prefix_cons.mpr ⟨rfl, hb⟩) (by simpa using hne), fun h b hb hstart hne => ?_⟩
    rcases List.prefix_cons_iff.mp hstart with rfl | ⟨b, rfl, hrest⟩
    · exact absurd rfl hb
    · exact h b hrest (by simpa using hne)
  rw [habove, at?]
  rcases hc : root.children[i]? with _ | c
  · simp [hc]
  · simp [hc, Node.mem_reached_iff]

/-- The places are reached in the order of the text. -/
lemma pairwise_reached : (root.reached goes).Pairwise (· < ·) :=
  (pairwise_reachedAmong fun _ _ _ => Node.pairwise_reached).1

/-- What is met are the nodes at the places that are reached. -/
lemma metAmong_children : metAmong goes 0 root.children =
    (root.reached goes).filterMap fun a => (root.at? a).map (·, goes a) := by
  rw [reached, ← filterMap_reachedAmong root.children fun i c hc => by rwa [Nat.zero_add]]
  refine List.filterMap_congr fun a ha => ?_
  obtain ⟨i, c, b, -, -, rfl⟩ := mem_reachedAmong_iff.mp ha
  rfl

/-- A visitor that goes below the nodes at certain places only meets the nodes at the places that are
reached so. -/
theorem accept_eq_after {σ : Type} {v : Visitor σ} {s : σ}
    (h : v.Decides s ((root.reached goes).filterMap fun a => (root.at? a).map (·, goes a))) :
    root.accept v s =
      v.after s ((root.reached goes).filterMap fun a => (root.at? a).map (·, goes a)) := by
  rw [← metAmong_children] at h ⊢
  rw [accept_eq]
  exact acceptAll_eq_after (fun c _ goes s => Node.accept_eq_after) h

/-- What is found at the places reached is found one by one. -/
lemma getElem?_filterMap_reached {β : Type} {f : Place → Option β}
    (hf : ∀ a, (root.at? a).isSome → (f a).isSome) (k : Nat) :
    ((root.reached goes).filterMap f)[k]? = (root.reached goes)[k]?.bind f := by
  have hall : ∀ a ∈ root.reached goes, (f a).isSome := fun a ha => hf a (mem_reached_iff.mp ha).1
  revert hall
  generalize root.reached goes = places
  intro hall
  induction places generalizing k with
  | nil => rfl
  | cons a places ih =>
    obtain ⟨b, hb⟩ := Option.isSome_iff_exists.mp (hall a List.mem_cons_self)
    rw [List.filterMap_cons_some hb]
    cases k with
    | zero => exact hb.symm
    | succ k => exact ih k fun a ha => hall a (List.mem_cons_of_mem _ ha)

/-- A recorder that decides as the places say writes down the nodes at the places reached. -/
lemma accept_recorder {goesBelow : List Node → Node → Bool}
    (h : ∀ written a n, (root.reached goes)[written.length]? = some a → root.at? a = some n →
      goesBelow written n = goes a) :
    root.accept (.recorder goesBelow) [] = (root.reached goes).filterMap root.at? := by
  have hdecides : (Visitor.recorder goesBelow).Decides []
      ((root.reached goes).filterMap fun a => (root.at? a).map (·, goes a)) := by
    refine Visitor.decides_recorder fun k m hm => ?_
    have hk := (List.getElem?_eq_some_iff.mp hm).1
    rw [getElem?_filterMap_reached (fun a ha => by rwa [Option.isSome_map])] at hm
    obtain ⟨a, ha, hat⟩ := Option.bind_eq_some_iff.mp hm
    obtain ⟨n, hn, rfl⟩ := Option.map_eq_some_iff.mp hat
    refine h _ a n ?_ hn
    rw [List.nil_append, List.length_map, List.length_take_of_le hk.le, ha]
  rw [accept_eq_after hdecides, Visitor.after_recorder, List.nil_append, List.map_filterMap]
  refine List.filterMap_congr fun a _ => ?_
  cases root.at? a <;> rfl

/-! ### Pruning -/

/-- What is left of the places of a visit when it does not go below the nodes at certain places: the
places that are not properly below one of those that are left. -/
structure Pruned (stops : Place → Bool) (places left : List Place) : Prop where
  /-- The order of the visit stays, and no place comes twice. -/
  sublist : left.Sublist places
  /-- Just the places below are left out. -/
  mem_iff : ∀ a, a ∈ left ↔ a ∈ places ∧ ∀ b ∈ left, stops b = true → b <+: a → b = a

lemma nodup_reached : (root.reached goes).Nodup :=
  pairwise_reached.imp fun {a b} hab (heq : a = b) => List.lt_irrefl b (heq ▸ hab)

/-- A visit without stops reaches all places. -/
lemma mem_places_iff {a : Place} :
    a ∈ root.reached (fun _ => true) ↔ (root.at? a).isSome := by
  simp [mem_reached_iff]

lemma reached_subset : root.reached goes ⊆ root.reached fun _ => true := fun _ ha =>
  mem_places_iff.mpr (mem_reached_iff.mp ha).1

/-- Above a place that is not reached there is one that is reached and stops the visit. -/
lemma exists_stop {a : Place} (ha : (root.at? a).isSome) (hnot : a ∉ root.reached goes) :
    ∃ b ∈ root.reached goes, goes b = false ∧ b <+: a ∧ b ≠ a := by
  -- The shortest one of the stops above the place has no stop above itself.
  induction hlength : a.length using Nat.strong_induction_on generalizing a with
  | _ length ih =>
    subst hlength
    rw [mem_reached_iff, not_and] at hnot
    obtain ⟨b, hb, hstart, hne, hstop⟩ :
        ∃ b, b ≠ [] ∧ b <+: a ∧ b ≠ a ∧ goes b = false := by
      simpa using hnot ha
    by_cases hreached : b ∈ root.reached goes
    · exact ⟨b, hreached, hstop, hstart, hne⟩
    · have hshorter : b.length < a.length :=
        lt_of_le_of_ne hstart.length_le fun h => hne (hstart.eq_of_length h)
      obtain ⟨c, hc, hcstop, hcb, -⟩ :=
        ih b.length hshorter (isSome_at?_above ha hb hstart) hreached rfl
      refine ⟨c, hc, hcstop, hcb.trans hstart, ?_⟩
      rintro rfl
      exact absurd hcb.length_le (by omega)

/-- A visit that stops at certain places is the whole one without the places below those. -/
theorem pruned_reached {stops : Place → Bool} :
    Pruned stops (root.reached fun _ => true) (root.reached (!stops ·)) where
  sublist := by
    have hfilter : (root.reached (!stops ·)) =
        (root.reached fun _ => true).filter (· ∈ root.reached (!stops ·)) := by
      refine pairwise_reached.eq_of_mem_iff (pairwise_reached.filter _) fun a => ?_
      rw [List.mem_filter, decide_eq_true_iff]
      exact ⟨fun ha => ⟨reached_subset ha, ha⟩, And.right⟩
    rw [hfilter]
    exact List.filter_sublist
  mem_iff a := by
    refine ⟨fun ha => ⟨reached_subset ha, fun b hb hstop hstart => ?_⟩, fun ⟨ha, hleft⟩ => ?_⟩
    · by_contra hne
      have hb : b ≠ [] := by
        rintro rfl
        simpa [at?] using (mem_reached_iff.mp hb).1
      have := (mem_reached_iff.mp ha).2 b hb hstart hne
      simp [hstop] at this
    · by_contra hnot
      obtain ⟨b, hb, hstop, hstart, hne⟩ := exists_stop (mem_places_iff.mp ha) hnot
      exact hne (hleft b hb (by simpa using hstop) hstart)

/-- A visit meets each node of a text once and before the nodes below it.  When it does not go below
certain nodes, told by their places or by what they are, the nodes below those are left out and no
others. -/
theorem visit_complete (root : Root) :
    ∃ places : List Place,
      (∀ a, a ∈ places ↔ (root.at? a).isSome) ∧
      places.Nodup ∧
      places.Pairwise (fun earlier later => ¬ later <+: earlier) ∧
      root.visit (fun _ => true) = places.filterMap root.at? ∧
      (∀ stops : Place → Bool, ∃ left, Pruned stops places left ∧
        root.accept (.recorder fun written _ => left[written.length]?.all (!stops ·)) [] =
          left.filterMap root.at?) ∧
      ∀ stops : Node → Bool, ∃ left, Pruned (fun a => (root.at? a).any stops) places left ∧
        root.visit (!stops ·) = left.filterMap root.at? := by
  refine ⟨root.reached fun _ => true, fun a => mem_places_iff, nodup_reached, ?_, ?_,
    fun stops => ⟨_, pruned_reached, ?_⟩, fun stops => ⟨_, pruned_reached, ?_⟩⟩
  · exact pairwise_reached.imp fun hab hstart => hstart.le hab
  · rw [← accept_recorderBy]
    exact accept_recorder fun _ _ _ _ _ => rfl
  · exact accept_recorder fun written a n ha _ => by rw [ha, Option.all_some]
  · rw [← accept_recorderBy]
    exact accept_recorder fun written a n _ hn => by rw [hn, Option.any_some]

end Root

end FrontEnd
