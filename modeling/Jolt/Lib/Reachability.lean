import Mathlib.Data.Set.Finite.List
import Mathlib.Order.WellFoundedSet

/-! # Reachability by a worklist

A search through a graph whose edges lead to finitely many nodes: it keeps the nodes it has visited
and a stack of nodes to look at. It ends, and visits exactly what can be reached (`mem_visit_iff`).
Of finitely many nodes of a graph without cycles, the only one that none of the others leads to
leads to all the others (`greatest_iff`). -/

namespace Jolt.Lib.Reachability

open Relation List

/-- A graph whose edges lead to the nodes of a list. -/
structure Graph (α : Type) where
  next : α → List α
  nodes : List α
  next_subset : ∀ a, next a ⊆ nodes

variable {α : Type} [DecidableEq α] (g : Graph α)

def Graph.Edge (a b : α) : Prop := b ∈ g.next a

/-- The stack with a node's successors on it, the last one at its top. -/
def Graph.push (a : α) (pending : List α) : List α := (g.next a).reverse ++ pending

def Graph.unvisited (visited pending : List α) :
    Finset α := (g.nodes ++ pending).toFinset \ visited.toFinset

variable {g} {visited pending rest : List α} {a b : α}

theorem unvisited_subset (h : rest ⊆ g.nodes ++ pending) (visited : List α) :
    g.unvisited visited rest ⊆ g.unvisited visited pending := by
  refine Finset.sdiff_subset_sdiff (fun x hx => ?_) (Finset.Subset.refl _)
  simp only [mem_toFinset, mem_append] at hx ⊢
  rcases hx with hx | hx
  · exact .inl hx
  · exact mem_append.mp (h hx)

theorem card_unvisited_lt (ha : a ∉ visited) :
    (g.unvisited (a :: visited) (g.push a rest)).card < (g.unvisited visited (a :: rest)).card := by
  refine Finset.card_lt_card ((Finset.ssubset_iff_of_subset ?_).mpr ⟨a, ?_, ?_⟩)
  · intro x hx
    simp only [Graph.unvisited, Graph.push, Finset.mem_sdiff, mem_toFinset, mem_append, mem_reverse,
      mem_cons, not_or] at hx ⊢
    refine ⟨?_, hx.2.2⟩
    rcases hx.1 with hx | hx | hx
    · exact .inl hx
    · exact .inl (g.next_subset a hx)
    · exact .inr (.inr hx)
  · simp [Graph.unvisited, ha]
  · simp [Graph.unvisited]

theorem lex_skip (a : α) : Prod.Lex (· < ·) (· < ·) ((g.unvisited visited rest).card, rest.length)
    ((g.unvisited visited (a :: rest)).card, (a :: rest).length) := by
  have hsub : rest ⊆ g.nodes ++ a :: rest := fun x hx => mem_append_right _ (mem_cons_of_mem a hx)
  have hcard := Finset.card_le_card (unvisited_subset hsub visited)
  refine Prod.lex_def.mpr (hcard.lt_or_eq.imp_right fun heq => ⟨heq, ?_⟩)
  exact Nat.lt_succ_self _

theorem lex_visit (ha : a ∉ visited) : Prod.Lex (· < ·) (· < ·)
    ((g.unvisited (a :: visited) (g.push a rest)).card, (g.push a rest).length)
    ((g.unvisited visited (a :: rest)).card, (a :: rest).length) :=
  Prod.lex_def.mpr (.inl (card_unvisited_lt ha))

/-- Look at the nodes of the stack, from its top. -/
def Graph.visit (g : Graph α) (visited : List α) : List α → List α
  | [] => visited
  | a :: rest =>
    if _h : a ∈ visited then g.visit visited rest else g.visit (a :: visited) (g.push a rest)
termination_by pending => ((g.unvisited visited pending).card, pending.length)
decreasing_by
  · exact lex_skip a
  · exact lex_visit _h

theorem nodup_visit (h : visited.Nodup) : (g.visit visited pending).Nodup := by
  fun_induction Graph.visit g visited pending with
  | case1 => exact h
  | case2 _ _ _ _ ih => exact ih h
  | case3 _ _ _ hnew ih => exact ih (nodup_cons.mpr ⟨hnew, h⟩)

theorem reach_of_mem_visit (h : b ∈ g.visit visited pending) :
    b ∈ visited ∨ ∃ a ∈ pending, ReflTransGen g.Edge a b := by
  fun_induction Graph.visit g visited pending with
  | case1 => exact .inl h
  | case2 _ a rest _ ih =>
    exact (ih h).imp_right fun ⟨c, hc, hreach⟩ => ⟨c, mem_cons_of_mem a hc, hreach⟩
  | case3 visited a rest _ ih =>
    rcases ih h with hb | ⟨c, hc, hreach⟩
    · rcases mem_cons.mp hb with rfl | hb
      · exact .inr ⟨b, mem_cons_self, .refl⟩
      · exact .inl hb
    · rcases mem_append.mp hc with hc | hc
      · exact .inr ⟨a, mem_cons_self, .head (mem_reverse.mp hc) hreach⟩
      · exact .inr ⟨c, mem_cons_of_mem a hc, hreach⟩

/-- What was visited and what is on the stack is visited, and where it leads, too. -/
theorem visit_closed (h : ∀ a ∈ visited, g.next a ⊆ visited ++ pending) :
    visited ++ pending ⊆ g.visit visited pending ∧
      ∀ a ∈ g.visit visited pending, g.next a ⊆ g.visit visited pending := by
  fun_induction Graph.visit g visited pending with
  | case1 visited => exact ⟨by simp, fun a ha b hb => by simpa using h a ha hb⟩
  | case2 visited a rest ha ih =>
    have hstack : visited ++ a :: rest ⊆ visited ++ rest := by
      intro x hx
      rcases mem_append.mp hx with hx | hx
      · exact mem_append_left _ hx
      · rcases mem_cons.mp hx with rfl | hx
        · exact mem_append_left _ ha
        · exact mem_append_right _ hx
    obtain ⟨hsub, hclosed⟩ := ih fun b hb => List.Subset.trans (h b hb) hstack
    exact ⟨List.Subset.trans hstack hsub, hclosed⟩
  | case3 visited a rest ha ih =>
    have hstack : visited ++ a :: rest ⊆ (a :: visited) ++ (g.push a rest) := by
      intro x hx
      simp only [Graph.push, mem_append, mem_cons] at hx ⊢
      tauto
    obtain ⟨hsub, hclosed⟩ := ih fun b hb => by
      rcases mem_cons.mp hb with rfl | hb
      · exact fun x hx => mem_append_right _ (mem_append_left _ (mem_reverse.mpr hx))
      · exact List.Subset.trans (h b hb) hstack
    exact ⟨List.Subset.trans hstack hsub, hclosed⟩

/-- **The search visits exactly what can be reached from the stack.** -/
theorem mem_visit_iff : b ∈ g.visit [] pending ↔ ∃ a ∈ pending, ReflTransGen g.Edge a b := by
  constructor
  · intro hb
    exact (reach_of_mem_visit hb).resolve_left not_mem_nil
  · rintro ⟨a, ha, hreach⟩
    have hvisit : [] ++ pending ⊆ g.visit [] pending ∧
        ∀ a ∈ g.visit [] pending, g.next a ⊆ g.visit [] pending := visit_closed nofun
    obtain ⟨hsub, hclosed⟩ := hvisit
    induction hreach with
    | refl => exact hsub ha
    | tail _ hedge ih => exact hclosed _ ih hedge

/-- **The only node that no other leads to leads to all the others.** -/
theorem greatest_iff {r : α → α → Prop} [IsStrictOrder α r] {l : List α} {a : α} :
    (∀ b, b ∈ l ∧ (∀ c ∈ l, ¬ r c b) ↔ b = a) ↔ a ∈ l ∧ ∀ b ∈ l, b ≠ a → r a b := by
  constructor
  · intro h
    obtain ⟨ha, -⟩ := (h a).mpr rfl
    refine ⟨ha, fun b hb => ?_⟩
    -- what leads to `b` and is not led to itself is `a`
    have hwf : {x | x ∈ l}.WellFoundedOn r := (finite_toSet l).wellFoundedOn
    refine hwf.induction hb (P := fun b => b ≠ a → r a b) fun b hb ih hne => ?_
    obtain ⟨c, hc, hcb⟩ : ∃ c ∈ l, r c b := by
      by_contra hnone
      push Not at hnone
      exact hne ((h b).mp ⟨hb, hnone⟩)
    by_cases hca : c = a
    · exact hca ▸ hcb
    · exact trans_of r (ih c hc hcb hca) hcb
  · rintro ⟨ha, hall⟩ b
    constructor
    · rintro ⟨hb, hmax⟩
      by_contra hne
      exact hmax a ha (hall b hb hne)
    · rintro rfl
      refine ⟨ha, fun c hc hcb => ?_⟩
      by_cases hne : c = b
      · exact irrefl_of r b (hne ▸ hcb)
      · exact irrefl_of r c (trans_of r hcb (hall c hc hne))

end Jolt.Lib.Reachability
