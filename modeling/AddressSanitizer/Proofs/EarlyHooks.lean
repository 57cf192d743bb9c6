/-
Heap hooks before there is a context. Blocks are laid out with the default redzones then, and a flag keeps other redzones
from being adopted later. It is a hook that sets the flag, at every call and whatever comes of it; whether a block has been
handed out is not looked at. So a hook that had nothing to do, or that failed, keeps other redzones out as well as one that
gave a block.

- `Sanitizer.init_redzonesChanged_iff`: when an attempt to initialize is refused for its redzones.
- `EarlyRun`: heap hooks, stores and attempts to initialize, with the blocks handed out and how the attempts ended.
- `EarlyRun.step_waiting`, `EarlyRun.run_waiting`: as long as every attempt fails there is no context, and the flag says if a
  hook has been called.
- `Sanitizer.redzones_refused_iff`: after which runs changed redzones are refused, and when this is for a block's sake.
-/
import Mathlib.Tactic
import AddressSanitizer.Proofs.HeapHooks

namespace AddressSanitizer

variable {A E : Type}

/-! ## Attempts that are refused -/

/-- A layout is turned away for what it says, or for what the shadow map holds. -/
theorem Context.prepare_ne_redzonesChanged (c : Context) (layout : Layout) (m : Machine A) :
    ((c.prepare layout).run m).1 ≠ .failed .redzonesChanged := by
  by_cases hfits : c.Fits layout
  · rw [run_prepare_eq hfits]
    cases alignUp layout.regionLen with
    | none => exact nofun
    | some region =>
      dsimp only
      rcases (c.shadow.poison c.shadow.base region .reserved).run _ with ⟨_ | _ | _, m'⟩ <;> exact nofun
  · unfold prepare
    simp only [Boundaries.shadowSize?_ofLayout]
    by_cases hstart : (Boundaries.ofLayout layout).shadowStart ≠ c.shadow.base
    · rw [if_pos hstart]
      exact nofun
    rw [if_neg hstart, Action.run_bind, Action.run_orTrap_some]
    by_cases hlen : c.shadow.len < layout.regionLen
    · simp only [if_pos hlen]
      exact nofun
    have hoffset : layout.shadowOffset ≠ c.shadow.translation.offset := by
      intro hoffset
      exact hfits ⟨not_not.mp hstart, UInt64.not_lt.mp hlen, hoffset⟩
    simp only [if_neg hlen, if_pos hoffset]
    exact nofun

namespace Sanitizer

variable {s : Sanitizer} {layout : Layout} {config : Config} {m : Machine A}

theorem init_of_empty (h : s.context = .empty) :
    s.init layout config m =
      match (s.prepare layout config).run m with
      | (.done c, m') => (.done c, { s with context := .filled c }, m')
      | (.failed e, m') => (.failed e, s, m')
      | (.trapped t, m') => (.trapped t, { s with context := .broken }, m') := by
  obtain ⟨context, used⟩ := s
  obtain rfl : context = .empty := h
  unfold init Latch.fillWith
  dsimp only
  rcases (prepare ⟨.empty, used⟩ layout config).run m with ⟨_ | _ | _, m'⟩ <;> rfl

/-- An attempt that fails leaves the sanitizer as it was. -/
theorem init_of_failed (h : s.context = .empty) {e : ContextError} (he : (s.init layout config m).1 = .failed e) :
    (s.init layout config m).2.1 = s := by
  rw [init_of_empty h] at he ⊢
  generalize (s.prepare layout config).run m = ended at he ⊢
  obtain ⟨_ | _ | _, m'⟩ := ended
  · cases he
  · rfl
  · cases he

/-- An attempt that is refused for its redzones has no effect. -/
theorem init_of_changed (h : s.context = .empty) (hused : s.heapUsed = true) (hchanged : Redzones.ofConfig config ≠ {}) :
    s.init layout config m = (.failed .redzonesChanged, s, m) := by
  rw [init_of_empty h, run_prepare, if_pos ⟨hused, hchanged⟩]

theorem init_redzonesChanged_iff (h : s.context = .empty) :
    (s.init layout config m).1 = .failed .redzonesChanged ↔ s.heapUsed = true ∧ Redzones.ofConfig config ≠ {} := by
  constructor
  · intro hfailed
    by_contra hnot
    rw [init_of_empty h, run_prepare, if_neg hnot] at hfailed
    cases hvalid : config.validate with
    | error e =>
      rw [hvalid] at hfailed
      cases hfailed
    | ok =>
      have hprepare := (layout.context config).prepare_ne_redzonesChanged layout m
      rw [hvalid] at hfailed
      dsimp only at hfailed
      generalize ((layout.context config).prepare layout).run m = ended at hfailed hprepare
      obtain ⟨_ | _ | _, m'⟩ := ended
      · cases hfailed
      · cases hfailed
        exact hprepare rfl
      · cases hfailed
  · rintro ⟨hused, hchanged⟩
    rw [init_of_changed h hused hchanged]

end Sanitizer

/-! ## Runs without a context -/

/-- the call is one of a heap hook -/
def HookCall.callsHook : HookCall → Bool
  | heap (.allocate _) | heap (.reallocate ..) | heap (.free _) => true
  | heap (.store ..) | init .. => false

/-- the sanitizer and its machine, the addresses that the hooks have handed out, and how the attempts to initialize have
ended -/
structure EarlyRun (A : Type) where
  sanitizer : Sanitizer := {}
  machine : Machine A
  blocks : List Address := []
  attempts : List (Outcome ContextError Context) := []

namespace EarlyRun

variable {r : EarlyRun A} {called : Bool}

/-- A hook that asks for a block has handed it out if its answer is not null. -/
def answered (r : EarlyRun A) : Outcome Empty Address × Sanitizer × Machine A → EarlyRun A
  | (.done user, sanitizer, machine) =>
    { r with sanitizer, machine, blocks := if user = 0 then r.blocks else r.blocks ++ [user] }
  | (_, sanitizer, machine) => { r with sanitizer, machine }

/-- There is no context, the flag says if a hook has been called, and no block has been handed out without one. -/
structure Waiting (called : Bool) (r : EarlyRun A) : Prop where
  context_eq : r.sanitizer.context = .empty
  used_eq : r.sanitizer.heapUsed = called
  called_of_blocks : r.blocks ≠ [] → called = true

theorem waiting_of_fresh (m : Machine A) : Waiting false { machine := m } where
  context_eq := rfl
  used_eq := rfl
  called_of_blocks := absurd rfl

/-- The call of a hook is seen in the flag, whatever the hook hands out. -/
theorem Waiting.touched (h : r.Waiting called) {sanitizer : Sanitizer} (hs : sanitizer = r.sanitizer.touched)
    (machine : Machine A) (blocks : List Address) : Waiting true { r with sanitizer, machine, blocks } where
  context_eq := by rw [hs]; exact h.context_eq
  used_eq := by
    rw [hs]
    simp [Sanitizer.touched, h.context_eq, Latch.get?]
  called_of_blocks _ := rfl

theorem Waiting.answered (h : r.Waiting called) {ended : Outcome Empty Address × Sanitizer × Machine A}
    (hs : ended.2.1 = r.sanitizer.touched) : (r.answered ended).Waiting true := by
  obtain ⟨_ | _ | _, sanitizer, machine⟩ := ended
  · exact h.touched hs machine _
  · exact h.touched hs machine _
  · exact h.touched hs machine _

variable [HeapAllocator A E]

/-- one call, with any arguments; a hook that traps is followed by others -/
def step (r : EarlyRun A) : HookCall → EarlyRun A
  | .heap (.allocate len) => r.answered (r.sanitizer.allocateHook len r.machine)
  | .heap (.reallocate user len) => r.answered (r.sanitizer.reallocateHook user len r.machine)
  | .heap (.free user) =>
    match r.sanitizer.freeHook user r.machine with
    | (_, sanitizer, machine) => { r with sanitizer, machine }
  | .heap (.store addr bytes) => { r with machine := { r.machine with memory := r.machine.memory.writeBytes addr bytes } }
  | .init layout config =>
    match r.sanitizer.init layout config r.machine with
    | (outcome, sanitizer, machine) => { r with sanitizer, machine, attempts := r.attempts ++ [outcome] }

def run (r : EarlyRun A) (calls : List HookCall) : EarlyRun A := calls.foldl step r

/-- every attempt to initialize has failed, and none has trapped -/
def Unsuccessful (r : EarlyRun A) : Prop := ∀ o ∈ r.attempts, ∃ e, o = .failed e

theorem attempts_answered (r : EarlyRun A) (ended : Outcome Empty Address × Sanitizer × Machine A) :
    (r.answered ended).attempts = r.attempts := by
  obtain ⟨_ | _ | _, sanitizer, machine⟩ := ended <;> rfl

theorem attempts_prefix_step (r : EarlyRun A) (call : HookCall) : r.attempts <+: (r.step call).attempts := by
  cases call with
  | init layout config => exact List.prefix_append _ _
  | heap call =>
    cases call with
    | allocate len => rw [step, attempts_answered]
    | reallocate user len => rw [step, attempts_answered]
    | free user => exact List.prefix_refl _
    | store addr bytes => exact List.prefix_refl _

theorem step_waiting (h : r.Waiting called) (call : HookCall) (hfailed : (r.step call).Unsuccessful) :
    (r.step call).Waiting (called || call.callsHook) := by
  cases call with
  | init layout config =>
    obtain ⟨e, he⟩ := hfailed (r.sanitizer.init layout config r.machine).1 (List.mem_append_right _ (List.mem_singleton_self _))
    have hs : (r.step (.init layout config)).sanitizer = r.sanitizer := Sanitizer.init_of_failed h.context_eq he
    rw [HookCall.callsHook, Bool.or_false]
    exact ⟨by rw [hs, h.context_eq], by rw [hs, h.used_eq], h.called_of_blocks⟩
  | heap call =>
    cases call with
    | allocate len =>
      rw [HookCall.callsHook, Bool.or_true]
      exact h.answered rfl
    | reallocate user len =>
      rw [HookCall.callsHook, Bool.or_true]
      exact h.answered rfl
    | free user =>
      rw [HookCall.callsHook, Bool.or_true]
      exact h.touched rfl _ _
    | store addr bytes =>
      rw [HookCall.callsHook, Bool.or_false]
      exact ⟨h.context_eq, h.used_eq, h.called_of_blocks⟩

theorem attempts_prefix_run (r : EarlyRun A) (calls : List HookCall) : r.attempts <+: (r.run calls).attempts := by
  induction calls generalizing r with
  | nil => exact List.prefix_refl _
  | cons call calls ih => exact (attempts_prefix_step r call).trans (ih (r.step call))

/-- As long as every attempt fails, the flag tells the runs in which a hook was called from the others. -/
theorem run_waiting (h : r.Waiting called) (calls : List HookCall) (hfailed : (r.run calls).Unsuccessful) :
    (r.run calls).Waiting (called || calls.any HookCall.callsHook) := by
  induction calls generalizing r called with
  | nil =>
    rw [List.any_nil, Bool.or_false]
    exact h
  | cons call calls ih =>
    have hstep : (r.step call).Unsuccessful := by
      intro o ho
      exact hfailed o ((attempts_prefix_run (r.step call) calls).subset ho)
    rw [List.any_cons, ← Bool.or_assoc]
    exact ih (step_waiting h call hstep) hfailed

end EarlyRun

namespace Sanitizer

/-- **Changed redzones are refused once a hook has been called.** Take any run of heap hooks, stores and attempts to
initialize, with any arguments and any allocator, in which every attempt fails. The next attempt, if its redzones are not the
default ones, is refused for that exactly if a hook has been called, and then it has no effect. A block that was handed out
has had a hook called for it, so it is always safe from changed redzones. But the hooks are not asked what they have done:
the redzones are refused exactly if a block has been handed out only in runs in which one has been, or without any hook. -/
theorem redzones_refused_iff [HeapAllocator A E] (m : Machine A) (calls : List HookCall)
    (hfailed : (EarlyRun.run { machine := m } calls).Unsuccessful) (layout : Layout) (config : Config)
    (hchanged : Redzones.ofConfig config ≠ {}) :
    let r := EarlyRun.run { machine := m } calls
    let next := r.sanitizer.init layout config r.machine
    (next.1 = .failed .redzonesChanged ↔ ∃ call ∈ calls, call.callsHook) ∧
    (next.1 = .failed .redzonesChanged → next = (.failed .redzonesChanged, r.sanitizer, r.machine)) ∧
    (r.blocks ≠ [] → next.1 = .failed .redzonesChanged) ∧
    ((next.1 = .failed .redzonesChanged ↔ r.blocks ≠ []) ↔ r.blocks ≠ [] ∨ ∀ call ∈ calls, ¬call.callsHook) := by
  intro r next
  have hwaiting := EarlyRun.run_waiting (EarlyRun.waiting_of_fresh m) calls hfailed
  rw [Bool.false_or] at hwaiting
  have hrefused : next.1 = .failed .redzonesChanged ↔ ∃ call ∈ calls, call.callsHook := by
    rw [init_redzonesChanged_iff hwaiting.context_eq, hwaiting.used_eq, List.any_eq_true]
    exact and_iff_left hchanged
  have hblocks : r.blocks ≠ [] → next.1 = .failed .redzonesChanged := by
    intro hne
    rw [hrefused, ← List.any_eq_true]
    exact hwaiting.called_of_blocks hne
  refine ⟨hrefused, ?_, hblocks, ?_⟩
  · intro h
    obtain ⟨hused, -⟩ := (init_redzonesChanged_iff hwaiting.context_eq).mp h
    exact init_of_changed hwaiting.context_eq hused hchanged
  · have hnone : (∀ call ∈ calls, ¬call.callsHook) ↔ ¬next.1 = .failed .redzonesChanged := by
      rw [hrefused]
      simp
    rw [hnone]
    constructor
    · intro h
      by_cases hne : r.blocks ≠ []
      · exact Or.inl hne
      · exact Or.inr (mt h.mp hne)
    · rintro (hne | hnot)
      · exact iff_of_true (hblocks hne) hne
      · exact iff_of_false hnot (mt hblocks hnot)

/-- A block is handed out; then larger redzones are refused, and a layout that its own map does not hold. -/
def refusedCalls : List HookCall :=
  [.heap (.allocate 10), .init lowLayout { headRedzone := 128 }, .init strayLayout {}]

theorem early_block_keeps_redzones :
    let r := EarlyRun.run { machine := { allocator := lowHeap } } refusedCalls
    r.Unsuccessful ∧ Redzones.ofConfig { headRedzone := 128 } ≠ {} ∧ r.blocks = [0x880] ∧
      r.sanitizer.init lowLayout { headRedzone := 128 } r.machine = (.failed .redzonesChanged, r.sanitizer, r.machine) := by
  intro r
  have hattempts : r.attempts = [.failed .redzonesChanged, .failed (.shadow (.invalidAddress 0x60))] := by decide +kernel
  have hfailed : r.Unsuccessful := by
    intro o ho
    rw [hattempts, List.mem_cons, List.mem_singleton] at ho
    rcases ho with rfl | rfl
    · exact ⟨_, rfl⟩
    · exact ⟨_, rfl⟩
  have hchanged : Redzones.ofConfig { headRedzone := 128 } ≠ {} := by decide
  have hblocks : r.blocks = [0x880] := by decide +kernel
  obtain ⟨-, heffect, hrefused, -⟩ :=
    redzones_refused_iff { allocator := lowHeap } refusedCalls hfailed lowLayout { headRedzone := 128 } hchanged
  exact ⟨hfailed, hchanged, hblocks, heffect (hrefused (by rw [hblocks]; exact List.cons_ne_nil _ _))⟩

/-- hooks that hand out nothing: there is nothing to give back, too little room for a block, and no block so long -/
def idleCalls : List HeapCall := [.free 0, .allocate 0x1000, .reallocate 0 0xffffffffffffffff]

/-- the context over the low layout with larger redzones -/
def wideContext : Context where
  shadow := lowLayout.shadowMap
  config := { headRedzone := 128 }
  boundaries := .filled (Boundaries.ofLayout lowLayout)

/-- A valid configuration with larger redzones is taken by a fresh sanitizer, and refused after any one of the idle calls. -/
theorem idle_hook_refuses_redzones :
    ({ headRedzone := 128 } : Config).validate = .ok () ∧
    (init {} lowLayout { headRedzone := 128 } ({ allocator := lowHeap } : Machine Bump)).1 = .done wideContext ∧
    ∀ call ∈ idleCalls,
      let r := EarlyRun.run { machine := { allocator := lowHeap } } [.heap call]
      r.blocks = [] ∧ r.attempts = [] ∧
        (r.sanitizer.init lowLayout { headRedzone := 128 } r.machine).1 = .failed .redzonesChanged := by
  refine ⟨by decide, by decide +kernel, ?_⟩
  decide +kernel

end Sanitizer

end AddressSanitizer
