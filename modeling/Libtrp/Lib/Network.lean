import Mathlib.Data.Set.Insert
import Mathlib.Logic.Function.Basic
import Mathlib.Logic.Relation

/-!
# Networks

Nodes of one kind send each other messages.  The network remembers whatever was sent, and
may deliver any of it to anyone, never, or again and again; it makes no message up.
A node takes a step on an input when the messages that were sent allow that input.

What is true of a node may be about the others, and so may what a message says.  Both
are judged by all nodes at once, the world, and have to stay true when the world goes on.

## Main definitions

* `Net`, `Net.Step` — the nodes with what was sent, and how they go on.
* `Trusts` — what each node rests on, what each message says, and how both stay true.

## Main results

* `Trusts.holds_step` — one step keeps both.
* `Trusts.holds` — **what nodes rest on holds, and what messages say is true.**
-/

namespace Lib

open Relation

variable {κ σ ι μ : Type*} [DecidableEq κ]

/-- Nodes, and the messages that were ever sent. -/
structure Net (κ σ μ : Type*) where
  node : κ → σ
  wire : Set μ

section

variable (step : σ → ι → σ → Prop) (allows : Set μ → ι → Prop) (sends : σ → μ → Prop)

/-- A node takes a step, or sends a message. -/
inductive Net.Step (N : Net κ σ μ) : Net κ σ μ → Prop
  | acts (k : κ) {i : ι} {s : σ} : allows N.wire i → step (N.node k) i s →
      Net.Step N ⟨Function.update N.node k s, N.wire⟩
  | sends (k : κ) {m : μ} : sends (N.node k) m → Net.Step N ⟨N.node, insert m N.wire⟩

/-- A node whose steps are a function of its input takes one after the other. -/
theorem Net.acts_trace {f : σ → ι → Option σ} (k : κ) {l : List ι} :
    ∀ {N : Net κ σ μ}, (∀ i ∈ l, allows N.wire i) → (l.foldlM f (N.node k)).isSome = true →
      ReflTransGen (Net.Step (fun s i t => f s i = some t) allows sends) N
        ⟨Function.update N.node k (l.foldl (fun s i => (f s i).getD s) (N.node k)), N.wire⟩ := by
  induction l with
  | nil =>
    intro N _ _
    rw [List.foldl_nil, Function.update_eq_self]
  | cons i l ih =>
    intro N hl h
    rw [List.foldlM_cons] at h
    rw [List.foldl_cons]
    cases hstep : f (N.node k) i with
    | none => simp [hstep] at h
    | some t =>
      rw [hstep] at h
      have hnode : (⟨Function.update N.node k t, N.wire⟩ : Net κ σ μ).node k = t :=
        Function.update_self k t N.node
      have hrest := ih (N := ⟨Function.update N.node k t, N.wire⟩)
        (fun j hj => hl j (List.mem_cons_of_mem i hj)) (by rw [hnode]; exact h)
      rw [hnode, Function.update_idem] at hrest
      exact .head (.acts k (hl i List.mem_cons_self) hstep) hrest

/-- What each node rests on and what each message says, in a world of nodes; a step of a node
is justified when the messages that allow it are true. -/
structure Trusts (rests : (κ → σ) → σ → Prop) (told : (κ → σ) → μ → Prop)
    (later : (κ → σ) → (κ → σ) → Prop) : Prop where
  later_rests : ∀ {w w' : κ → σ} {s : σ}, later w w' → rests w s → rests w' s
  later_told : ∀ {w w' : κ → σ} {m : μ}, later w w' → told w m → told w' m
  acts : ∀ {w : κ → σ} {k : κ} {ms : Set μ} {i : ι} {s : σ}, (∀ j, rests w (w j)) →
    (∀ m ∈ ms, told w m) → allows ms i → step (w k) i s →
      later w (Function.update w k s) ∧ rests (Function.update w k s) s
  sends : ∀ {w : κ → σ} {k : κ} {m : μ}, rests w (w k) → sends (w k) m → told w m

end

namespace Trusts

variable {step : σ → ι → σ → Prop} {allows : Set μ → ι → Prop} {sends : σ → μ → Prop}
  {rests : (κ → σ) → σ → Prop} {told : (κ → σ) → μ → Prop} {later : (κ → σ) → (κ → σ) → Prop}
  {N N' : Net κ σ μ}

/-- One step. -/
theorem holds_step (h : Trusts step allows sends rests told later)
    (hN : (∀ k, rests N.node (N.node k)) ∧ ∀ m ∈ N.wire, told N.node m)
    (hs : Net.Step step allows sends N N') :
    (∀ k, rests N'.node (N'.node k)) ∧ ∀ m ∈ N'.wire, told N'.node m := by
  cases hs with
  | @acts k i s hi hstep =>
    obtain ⟨hlater, hrests⟩ := h.acts hN.1 hN.2 hi hstep
    refine ⟨fun j => ?_, fun m hm => h.later_told hlater (hN.2 m hm)⟩
    dsimp only
    rcases eq_or_ne j k with rfl | hj
    · rwa [Function.update_self]
    · rw [Function.update_of_ne hj]
      exact h.later_rests hlater (hN.1 j)
  | @sends k m hm =>
    refine ⟨hN.1, fun m' hm' => ?_⟩
    rcases Set.mem_insert_iff.mp hm' with rfl | hm'
    · exact h.sends (hN.1 k) hm
    · exact hN.2 m' hm'

/-- **What nodes rest on holds, and what messages say is true**, in whatever is reached from
a network in which it did. -/
theorem holds (h : Trusts step allows sends rests told later)
    (hN : (∀ k, rests N.node (N.node k)) ∧ ∀ m ∈ N.wire, told N.node m)
    (hr : ReflTransGen (Net.Step step allows sends) N N') :
    (∀ k, rests N'.node (N'.node k)) ∧ ∀ m ∈ N'.wire, told N'.node m := by
  induction hr with
  | refl => exact hN
  | tail _ hs ih => exact h.holds_step ih hs

end Trusts

end Lib
