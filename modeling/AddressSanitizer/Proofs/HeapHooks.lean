/-
The heap hooks, and the redzones they lay blocks out with. Before there is a context these have the default sizes, later
those of its configuration; a program may try to initialize the sanitizer at any time, with any layout and configuration,
while it has blocks in use. The invariant is that the redzones in force are those of every block in use: a flag that the
hooks set keeps any others from being adopted once a block may be in use.

- `Sanitizer.Attempted`: what an attempt to initialize does to the sanitizer.
- `Asked`: what an operation that needs a block has entered in the allocator's ledger.
- `HookHeap.Consistent`: the invariant; `step_consistent`, `run_consistent`: it holds along every run.
- `Sanitizer.hooks_find_headers`: what the hooks do with a block in use, at every state of every run.
-/
import Mathlib.Tactic
import AddressSanitizer.Proofs.Initialization
import AddressSanitizer.Proofs.ShadowEffects
import AddressSanitizer.Proofs.HeapRuns
import AddressSanitizer.Sanitizer

namespace AddressSanitizer

variable {A E ε : Type}

/-! ## Attempts to initialize -/

/-- the shadow map over a layout's own shadow region -/
def Layout.shadowMap (l : Layout) : ShadowMap :=
  { space := .program, base := l.shadowStart, len := l.shadowSize, translation := ⟨l.shadowOffset⟩ }

/-- the context over a layout's own shadow region, not initialized yet -/
def Layout.context (l : Layout) (config : Config) : Context where
  shadow := l.shadowMap
  config
  boundaries := .empty

/-- However the preparation of a context ends, it has changed shadow bytes at most. -/
theorem Context.prepare_alike (c : Context) (layout : Layout) (m : Machine A) :
    m.Alike c.shadow.cells ((c.prepare layout).run m).2 := by
  by_cases hfits : c.Fits layout
  case neg =>
    obtain ⟨e, hrun⟩ := run_prepare_of_not_fits (A := A) hfits
    rw [hrun]
    exact .refl _ m
  have hclear := c.shadow.sameOutside_clear Tag.valid.byte m.memory
  rw [run_prepare_eq hfits]
  cases hregion : alignUp layout.regionLen with
  | none => exact ⟨rfl, hclear⟩
  | some region =>
    have hlen : region.toNat % 8 = 0 := by rw [alignUp_eq_some_iff.mp hregion, roundUp_mod]
    by_cases hstart : Aligned c.shadow.base
    · obtain ⟨-, halloc, hsame⟩ := ShadowMap.poison_confined (s := c.shadow) (aligned_iff.mp hstart) hlen .reserved
        { m with memory := c.shadow.clear Tag.valid.byte m.memory }
      dsimp only
      rcases hrun : (c.shadow.poison c.shadow.base region .reserved).run _ with ⟨_ | e | t, m'⟩ <;>
        rw [hrun] at halloc hsame <;> exact ⟨halloc, hclear.trans hsame⟩
    · dsimp only
      rw [c.shadow.run_poison_of_not_aligned hstart]
      exact ⟨rfl, hclear⟩

namespace Sanitizer

variable {s : Sanitizer} {layout : Layout} {config : Config}

/-- What an attempt to initialize makes of the sanitizer. It keeps the context that there is, and the lack of one unless the
attempt succeeds; then the configuration is valid, and has the default redzones if the heap is in use. -/
inductive Attempted (s : Sanitizer) (layout : Layout) (config : Config) : Sanitizer → Prop where
  | kept {context : Latch Context} (hcontext : context.get? = s.context.get?) :
    s.Attempted layout config { s with context }
  | made {c : Context} (hnone : s.context.get? = none) (hshadow : c.shadow = layout.shadowMap) (hconfig : c.config = config)
      (hvalid : config.validate = .ok ()) (hused : s.heapUsed = true → c.redzones = {}) :
    s.Attempted layout config { s with context := .filled c }

theorem run_prepare (s : Sanitizer) (layout : Layout) (config : Config) (m : Machine A) :
    (s.prepare layout config).run m =
      if s.heapUsed ∧ Redzones.ofConfig config ≠ {} then (.failed .redzonesChanged, m)
      else match config.validate with
        | .error e => (.failed (.config e), m)
        | .ok () =>
          match ((layout.context config).prepare layout).run m with
          | (.done b, m') => (.done { layout.context config with boundaries := .filled b }, m')
          | (.failed e, m') => (.failed e, m')
          | (.trapped t, m') => (.trapped t, m') := by
  unfold prepare Context.new
  by_cases hchanged : s.heapUsed ∧ Redzones.ofConfig config ≠ {}
  · rw [if_pos hchanged, if_pos hchanged]
    rfl
  · rw [if_neg hchanged, if_neg hchanged]
    cases config.validate with
    | error e => rfl
    | ok =>
      refine (Action.run_bind m ((layout.context config).prepare layout) _).trans ?_
      rcases ((layout.context config).prepare layout).run m with ⟨_ | _ | _, m'⟩ <;> rfl

/-- An attempt to initialize changes shadow bytes at most, and those of the layout's shadow region only. -/
theorem init_attempted (s : Sanitizer) (layout : Layout) (config : Config) (m : Machine A) :
    s.Attempted layout config (s.init layout config m).2.1 ∧
      m.Alike layout.shadowMap.cells (s.init layout config m).2.2 := by
  unfold init Latch.fillWith
  cases hcontext : s.context with
  | filled c => exact ⟨.kept (by rw [hcontext]), .refl _ m⟩
  | broken => exact ⟨.kept (by rw [hcontext]), .refl _ m⟩
  | empty =>
    have hnone : s.context.get? = none := by rw [hcontext]; rfl
    simp only [run_prepare]
    split_ifs with hchanged
    · exact ⟨.kept hnone.symm, .refl _ m⟩
    cases hvalid : config.validate with
    | error e => exact ⟨.kept hnone.symm, .refl _ m⟩
    | ok =>
      have halike := (layout.context config).prepare_alike layout m
      dsimp only
      rcases hrun : ((layout.context config).prepare layout).run m with ⟨b | e | t, m'⟩ <;>
        rw [hrun] at halike
      · refine ⟨.made hnone rfl rfl hvalid fun hused => ?_, halike⟩
        by_contra hne
        exact hchanged ⟨hused, hne⟩
      · exact ⟨.kept hnone.symm, halike⟩
      · exact ⟨.kept hnone.symm, halike⟩

end Sanitizer

/-! ## What the ledger shows -/

namespace Redzones

variable {r : Redzones} {shadow : Footprint} {x : UserBlock} {len : UInt64} {size : BlockSize}
  {m m' : Machine (Ledger A)} {o : Outcome (HeapError E) Address}

/-- What an operation that needs a block for `len` user bytes has entered in the ledger. If no block can be that long,
nothing; else the call for a block of the right size with its answer. If the operation was done, the allocator has handed out
the block that it gives the user's address of. -/
inductive Asked (r : Redzones) (len : UInt64) (call : UInt64 → AllocatorCall) (l : Ledger A) :
    Outcome ε Address → Ledger A → Prop where
  | tooLong {e : ε} {l' : Ledger A} (hsize : r.blockSize? len = none) (hledger : l' = l) : r.Asked len call l (.failed e) l'
  | refused {size : BlockSize} {o : Outcome ε Address} {l' : Ledger A} {answer : AllocatorAnswer}
      (hsize : r.blockSize? len = some size) (ho : ∀ user, o ≠ .done user)
      (hentries : l'.entries = l.entries ++ [(call size.total, answer)]) : r.Asked len call l o l'
  | gave {size : BlockSize} {l' : Ledger A} {header user : Address} (hsize : r.blockSize? len = some size)
      (huser : r.userOf? header = some user) (hentries : l'.entries = l.entries ++ [(call size.total, .gave header)]) :
      r.Asked len call l (.done user) l'

theorem asked_handOut (hsize : r.blockSize? len = some size) {call : UInt64 → AllocatorCall} {ask : Action A E Address}
    (hrun : (r.handOut none (Ledger.enter (call size.total) .gave ask) len size.aligned).run m = (o, m')) :
    r.Asked len call m.allocator o m'.allocator := by
  rw [run_handOut, Ledger.run_enter] at hrun
  rcases hask : ask.run { m with allocator := m.allocator.inner } with ⟨header | e | t, m₁⟩ <;> rw [hask] at hrun
  · simp only [layOut, Action.run_bind, Action.run_modifyMemory] at hrun
    cases huser : r.userOf? header <;> rw [huser] at hrun <;> cases hrun
    · exact .refused hsize (by simp) rfl
    · exact .gave hsize huser rfl
  · cases hrun
    exact .refused hsize (by simp) rfl
  · cases hrun
    exact .refused hsize (by simp) rfl

variable [HeapAllocator A E]

theorem asked_allocate (hrun : (r.allocate none len).run m = (o, m')) :
    r.Asked len .allocate m.allocator o m'.allocator := by
  rw [run_allocate] at hrun
  cases hsize : r.blockSize? len <;> rw [hsize] at hrun
  case none =>
    cases hrun
    exact .tooLong hsize rfl
  case some size => exact asked_handOut (m := { m with log := m.log.push (.alloc len) }) hsize hrun

theorem asked_reallocate (hr : r.Valid) (hx : r.Placed shadow x) (hrun : (r.reallocate none x.user len).run m = (o, m')) :
    r.Asked len (.reallocate (r.block x).addr) m.allocator o m'.allocator := by
  rw [run_reallocate_none (hx.user_ne_zero hr) hx.headerOf?_user] at hrun
  cases hsize : r.blockSize? len <;> rw [hsize] at hrun
  case none =>
    cases hrun
    exact .tooLong hsize rfl
  case some size => exact asked_handOut (m := { m with log := m.log.push (.realloc x.user len) }) hsize hrun

/-- Giving back a block is entered as a call with the block of the allocator. -/
theorem entries_free (hr : r.Valid) (hx : r.Placed shadow x) {o : Outcome (HeapError E) Unit}
    (hrun : (r.free none x.user).run m = (o, m')) :
    ∃ answer, m'.allocator.entries = m.allocator.entries ++ [(.free (r.block x).addr, answer)] ∧
      (o = .done () ↔ answer = .took) := by
  have hfree : (HeapAllocator.free (r.block x).addr : Action (Ledger A) E Unit) =
      Ledger.enter (.free (r.block x).addr) (fun _ => .took) (HeapAllocator.free (r.block x).addr) := rfl
  rw [run_free (hx.user_ne_zero hr) hx.headerOf?_user, hfree, Ledger.run_enter] at hrun
  rcases hask : (HeapAllocator.free (r.block x).addr : Action A E Unit).run
    { m with log := m.log.push (.free x.user), allocator := m.allocator.inner } with ⟨_ | e | t, m₁⟩ <;>
    rw [hask] at hrun <;> cases hrun
  · exact ⟨.took, rfl, iff_of_true rfl rfl⟩
  · exact ⟨.refused, rfl, iff_of_false nofun nofun⟩
  · exact ⟨.refused, rfl, iff_of_false nofun nofun⟩

end Redzones

/-! ## How hooks run -/

namespace Sanitizer

/-- the sanitizer once a hook has been called -/
def touched (s : Sanitizer) : Sanitizer := { s with heapUsed := s.heapUsed || s.context.get?.isNone }

/-- what a hook gives when its operation has ended: a block's address, or zero -/
def hookAnswer : Outcome (HeapError E) Address → Outcome Empty Address
  | .done user => .done user
  | .failed _ => .done 0
  | .trapped t => .trapped t

variable [HeapAllocator A E] {s : Sanitizer} {m m' : Machine A} {user : Address} {len : UInt64}

/-- A hook does what its operation does, and logs why it has failed. -/
theorem run_allocateHook {o : Outcome (HeapError E) Address}
    (hrun : (s.redzones.allocate s.shadow? len).run m = (o, m')) :
    ∃ log, s.allocateHook len m = (hookAnswer o, s.touched, { m' with log }) := by
  unfold allocateHook withHeap
  rw [Action.run_bind, Action.run_attempt, hrun]
  cases o <;> exact ⟨_, rfl⟩

theorem run_reallocateHook {o : Outcome (HeapError E) Address}
    (hrun : (s.redzones.reallocate s.shadow? user len).run m = (o, m')) :
    ∃ log, s.reallocateHook user len m = (hookAnswer o, s.touched, { m' with log }) := by
  unfold reallocateHook withHeap
  rw [Action.run_bind, Action.run_attempt, hrun]
  cases o <;> exact ⟨_, rfl⟩

theorem run_freeHook {o : Outcome (HeapError E) Unit} (hrun : (s.redzones.free s.shadow? user).run m = (o, m')) :
    ∃ answer log, s.freeHook user m = (answer, s.touched, { m' with log }) ∧ (o = .done () → answer = .done ()) := by
  unfold freeHook withHeap
  rw [Action.run_bind, Action.run_attempt, hrun]
  cases o with
  | done => exact ⟨.done (), _, rfl, fun _ => rfl⟩
  | failed e => exact ⟨.done (), _, rfl, fun _ => rfl⟩
  | trapped t => exact ⟨.trapped t, _, rfl, nofun⟩

end Sanitizer

/-! ## Runs of a program -/

/-- a block as it was handed out: in which block of the allocator, and with which redzones -/
structure HookBlock extends UserBlock where
  header : Address
  redzones : Redzones
  deriving DecidableEq, Repr

/-- what a program does: it calls the heap hooks, stores into its blocks, and tries to initialize the sanitizer -/
inductive HookCall where
  | heap (call : HeapCall)
  | init (layout : Layout) (config : Config)
  deriving DecidableEq, Repr

/-- the sanitizer, the machine that it works on, and the blocks in use -/
structure HookHeap (A : Type) where
  sanitizer : Sanitizer := {}
  machine : Machine (Ledger A)
  live : List HookBlock := []

namespace HookHeap

variable {h : HookHeap A}

def users (h : HookHeap A) : List UserBlock := h.live.map HookBlock.toUserBlock

/-- the block that a hook gives: the allocator's part of it is what was last entered in the ledger -/
def handedOut? (h : HookHeap A) (len : UInt64) (answer : Outcome Empty Address) (machine : Machine (Ledger A)) :
    Option HookBlock :=
  match answer, machine.allocator.lastAnswer? with
  | .done user, some (.gave header) => if user = 0 then none else some { user, len, header, redzones := h.sanitizer.redzones }
  | _, _ => none

/-- what a hook leaves that asks for a block; if it gives one, this is in use beside `others` -/
def received (h : HookHeap A) (len : UInt64) (others : List HookBlock) :
    Outcome Empty Address × Sanitizer × Machine (Ledger A) → HookHeap A
  | (answer, sanitizer, machine) =>
    { sanitizer, machine, live := match h.handedOut? len answer machine with
      | some x => x :: others
      | none => h.live }

variable [HeapAllocator A E]

/-- A heap hook, or a store. A block is given back once the allocator has taken it. -/
def perform (h : HookHeap A) : HeapCall → HookHeap A
  | .allocate len => h.received len h.live (h.sanitizer.allocateHook len h.machine)
  | .reallocate user len =>
    h.received len (h.live.filter (·.user ≠ user)) (h.sanitizer.reallocateHook user len h.machine)
  | .free user =>
    match h.sanitizer.freeHook user h.machine with
    | (_, sanitizer, machine) =>
      { sanitizer, machine, live :=
          if machine.allocator.lastAnswer? = some .took then h.live.filter (·.user ≠ user) else h.live }
  | .store addr bytes => { h with machine := { h.machine with memory := h.machine.memory.writeBytes addr bytes } }

/-- one call; heap calls that the program has no right to are left out -/
def step (h : HookHeap A) : HookCall → HookHeap A
  | .heap call => if call.Allowed h.users then h.perform call else h
  | .init layout config =>
    match h.sanitizer.init layout config h.machine with
    | (_, sanitizer, machine) => { h with sanitizer, machine }

def run (h : HookHeap A) (calls : List HookCall) : HookHeap A := calls.foldl step h

end HookHeap

/-! ## The invariant -/

/-- the length that an allocator was asked for -/
def AllocatorCall.len? : AllocatorCall → Option UInt64
  | allocate len | reallocate _ len => some len
  | free _ => none

/-- A block was laid out with the redzones `r`: the allocator was asked for a block of their size, and the user's address
lies behind the first redzone in the block that it gave. -/
structure HookBlock.LaidOut (r : Redzones) (l : Ledger A) (x : HookBlock) : Prop where
  redzones_eq : x.redzones = r
  user_eq : r.userOf? x.header = some x.user
  given : ∃ call, (call, .gave x.header) ∈ l.entries ∧ call.len? = (r.blockSize? x.len).map BlockSize.total

theorem HookBlock.LaidOut.later {r : Redzones} {l l' : Ledger A} {x : HookBlock} (h : x.LaidOut r l)
    (hentries : l.entries <+: l'.entries) : x.LaidOut r l' := by
  obtain ⟨call, hcall, hlen⟩ := h.given
  exact ⟨h.redzones_eq, h.user_eq, call, hentries.subset hcall, hlen⟩

/-- the allocator's block of a block that was laid out -/
theorem HookBlock.LaidOut.block_addr {r : Redzones} {l : Ledger A} {x : HookBlock} (h : x.LaidOut r l) :
    (r.block x.toUserBlock).addr = x.header := by
  have huser := checkedAdd_eq_some_iff.mp h.user_eq
  rw [← UInt64.toNat_inj]
  show (x.user - r.head).toNat = x.header.toNat
  rw [toNat_sub_of_le (by omega)]
  omega

namespace HookHeap

variable {h : HookHeap A} {shadow : Footprint} {Valid : A → Memory → List Block → Prop}

/-- The redzones in force are those of all blocks in use, and no others will be adopted while there are any. -/
structure Consistent (shadow : Footprint) (Valid : A → Memory → List Block → Prop) (h : HookHeap A) : Prop where
  valid : h.sanitizer.redzones.Valid
  tracked : ∀ s ∈ h.sanitizer.shadow?, s.cells ⊆ shadow
  secured : h.sanitizer.redzones.Secured (fun a => Valid a.inner) h.machine.allocator h.machine.memory h.users
  laidOut : ∀ x ∈ h.live, x.LaidOut h.sanitizer.redzones h.machine.allocator
  used : h.sanitizer.context.get? = none → h.live ≠ [] → h.sanitizer.heapUsed = true

/-- After a hook, the blocks have to be looked at and nothing else. -/
theorem Consistent.of_touched (hcons : h.Consistent shadow Valid) {machine : Machine (Ledger A)} {live : List HookBlock}
    (hsecured : h.sanitizer.redzones.Secured (fun a => Valid a.inner) machine.allocator machine.memory
      (live.map HookBlock.toUserBlock))
    (hlaidOut : ∀ x ∈ live, x.LaidOut h.sanitizer.redzones machine.allocator) :
    Consistent shadow Valid { sanitizer := h.sanitizer.touched, machine, live } where
  valid := hcons.valid
  tracked := hcons.tracked
  secured := hsecured
  laidOut := hlaidOut
  used hnone _ := by
    have hnone : h.sanitizer.context.get? = none := hnone
    simp [Sanitizer.touched, hnone]

theorem handedOut?_of_gave {entries : List (AllocatorCall × AllocatorAnswer)} {call : AllocatorCall}
    {header user : Address} (h : HookHeap A) (len : UInt64) (machine : Machine (Ledger A)) (hne : user ≠ 0)
    (hentries : machine.allocator.entries = entries ++ [(call, .gave header)]) :
    h.handedOut? len (.done user) machine = some { user, len, header, redzones := h.sanitizer.redzones } := by
  have hlast : machine.allocator.lastAnswer? = some (.gave header) := by simp [Ledger.lastAnswer?, hentries]
  simp only [handedOut?, hlast, if_neg hne]

theorem handedOut?_of_not_done {o : Outcome (HeapError E) Address} (ho : ∀ user, o ≠ .done user) (h : HookHeap A)
    (len : UInt64) (machine : Machine (Ledger A)) : h.handedOut? len (Sanitizer.hookAnswer o) machine = none := by
  cases o with
  | done user => exact absurd rfl (ho user)
  | failed e =>
    simp only [Sanitizer.hookAnswer, handedOut?]
    split <;> simp_all
  | trapped t => rfl

theorem users_filter (h : HookHeap A) (user : Address) :
    (h.live.filter (·.user ≠ user)).map HookBlock.toUserBlock = h.users.filter (·.user ≠ user) := by
  rw [users, List.filter_map]
  rfl

/-- With or without a context, an operation mirrors what it does without a shadow map. -/
theorem Consistent.mirrors {α : Type} (hcons : h.Consistent shadow Valid)
    (op : Option ShadowMap → Action (Ledger A) (HeapError E) α)
    (hmirrors : ∀ s, s.cells ⊆ shadow → (op none).Mirrors shadow (op (some s)) h.machine h.machine) :
    (op none).Mirrors shadow (op h.sanitizer.shadow?) h.machine h.machine := by
  cases hs : h.sanitizer.shadow? with
  | none => exact .refl shadow (op none) h.machine
  | some s => exact hmirrors s (hcons.tracked s hs)

section Step

variable [HeapAllocator A E] (hc : HeapAllocator.Contract (A := A) shadow Valid) (hcons : h.Consistent shadow Valid)
include hc hcons

theorem placed {x : HookBlock} (hx : x ∈ h.live) : h.sanitizer.redzones.Placed shadow x.toUserBlock :=
  hcons.secured.placed (Ledger.contract hc) hcons.valid (List.mem_map_of_mem hx)

/-- What a hook leaves that asks for a block, if its operation without a shadow map serves the owners of blocks. -/
theorem received_consistent {len : UInt64} {others : List HookBlock} (call : UInt64 → AllocatorCall)
    {plain tracked : Action (Ledger A) (HeapError E) Address} (hsub : ∀ x ∈ others, x ∈ h.live)
    (hcall : ∀ n, (call n).len? = some n)
    (hserves : HeapAllocator.Serves (h.sanitizer.redzones.Secured fun a => Valid a.inner) Footprint.users plain h.machine
      h.users (others.map HookBlock.toUserBlock) fun user => [⟨user, len⟩])
    (hasked : ∀ {o m'}, plain.run h.machine = (o, m') →
      h.sanitizer.redzones.Asked len call h.machine.allocator o m'.allocator)
    (hmirrors : plain.Mirrors shadow tracked h.machine h.machine) {o : Outcome (HeapError E) Address}
    {m' : Machine (Ledger A)} (hrun : tracked.run h.machine = (o, m')) (log : Array Event) :
    (h.received len others (Sanitizer.hookAnswer o, h.sanitizer.touched, { m' with log })).Consistent shadow Valid := by
  obtain ⟨m₁, hplain, halike⟩ := hmirrors.eq_run hrun
  have hentered := hasked hplain
  rw [← halike.allocator_eq] at hentered
  have hc' := Ledger.contract hc
  -- no block was handed out: those in use stay so
  have hrefused (ho : ∀ user, o ≠ .done user) (hentries : h.machine.allocator.entries <+: m'.allocator.entries) :
      (h.received len others (Sanitizer.hookAnswer o, h.sanitizer.touched, { m' with log })).Consistent shadow Valid := by
    obtain ⟨hsecured, -⟩ := hserves.refused _ _ hplain ho
    have hsecured := hsecured.of_alike hc' hcons.valid halike
    rw [received, handedOut?_of_not_done ho]
    exact hcons.of_touched hsecured fun x hx => (hcons.laidOut x hx).later hentries
  cases hentered with
  | tooLong hsize hledger => exact hrefused (by exact nofun) (by rw [hledger])
  | refused hsize ho hentries => exact hrefused ho (hentries ▸ List.prefix_append _ _)
  | @gave size _ header user hsize huser hentries =>
    obtain ⟨hsecured, -⟩ := hserves.done _ _ hplain
    have hsecured := hsecured.of_alike hc' hcons.valid halike
    have hne := (hsecured.placed hc' hcons.valid (List.mem_cons_self ..)).user_ne_zero hcons.valid
    rw [Sanitizer.hookAnswer, received, handedOut?_of_gave h len { m' with log } hne hentries]
    refine hcons.of_touched hsecured fun x hx => ?_
    rcases List.mem_cons.mp hx with rfl | hx
    · refine ⟨rfl, huser, call size.total, ?_, by rw [hcall, hsize]; rfl⟩
      rw [hentries]
      exact List.mem_append_right _ (List.mem_singleton.mpr rfl)
    · exact (hcons.laidOut x (hsub x hx)).later (hentries ▸ List.prefix_append _ _)

theorem filter_zero : h.live.filter (·.user ≠ 0) = h.live :=
  List.filter_eq_self.mpr fun _ hx => decide_eq_true ((placed hc hcons hx).user_ne_zero hcons.valid)

theorem allocate_consistent (len : UInt64) : (h.perform (.allocate len)).Consistent shadow Valid := by
  rcases hrun : (h.sanitizer.redzones.allocate h.sanitizer.shadow? len).run h.machine with ⟨o, m'⟩
  obtain ⟨log, hhook⟩ := Sanitizer.run_allocateHook hrun
  have hc' := Ledger.contract hc
  have hmirrors := hcons.mirrors (h.sanitizer.redzones.allocate · len) fun s hs =>
    Redzones.mirrors_allocate hs hcons.valid hc' hcons.secured (.refl _ _) len
  rw [perform, hhook]
  exact received_consistent hc hcons .allocate (fun _ => id) (fun _ => rfl)
    (Redzones.serves_allocate hc' hcons.valid hcons.secured len) Redzones.asked_allocate hmirrors hrun log

theorem reallocate_zero_consistent (len : UInt64) : (h.perform (.reallocate 0 len)).Consistent shadow Valid := by
  rcases hrun : (h.sanitizer.redzones.reallocate h.sanitizer.shadow? 0 len).run h.machine with ⟨o, m'⟩
  obtain ⟨log, hhook⟩ := Sanitizer.run_reallocateHook hrun
  have hc' := Ledger.contract hc
  have hzero := Redzones.run_reallocate_zero h.sanitizer.redzones none len h.machine
  have hmirrors := hcons.mirrors (h.sanitizer.redzones.reallocate · 0 len) fun s hs =>
    Redzones.mirrors_reallocate_zero hs hcons.valid hc' hcons.secured (.refl _ _) len
  rw [perform, hhook, filter_zero hc hcons]
  refine received_consistent hc hcons .allocate (fun _ => id) (fun _ => rfl) ?_ (fun hplain => ?_) hmirrors hrun log
  · exact (Redzones.serves_allocate (m := { h.machine with log := h.machine.log.push (.realloc 0 len) }) hc' hcons.valid
      hcons.secured len).congr rfl hzero
  · rw [hzero] at hplain
    exact Redzones.asked_allocate (m := { h.machine with log := h.machine.log.push (.realloc 0 len) }) hplain

theorem mirrors_reallocate {x : HookBlock} (hx : x ∈ h.live) (len : UInt64) :
    (h.sanitizer.redzones.reallocate none x.user len).Mirrors shadow
      (h.sanitizer.redzones.reallocate h.sanitizer.shadow? x.user len) h.machine h.machine :=
  hcons.mirrors (h.sanitizer.redzones.reallocate · x.user len) fun _ hs =>
    Redzones.mirrors_reallocate hs hcons.valid (Ledger.contract hc) hcons.secured (.refl _ _) (List.mem_map_of_mem hx) len

theorem reallocate_consistent {x : HookBlock} (hx : x ∈ h.live) (len : UInt64) :
    (h.perform (.reallocate x.user len)).Consistent shadow Valid := by
  rcases hrun : (h.sanitizer.redzones.reallocate h.sanitizer.shadow? x.user len).run h.machine with ⟨o, m'⟩
  obtain ⟨log, hhook⟩ := Sanitizer.run_reallocateHook hrun
  have hc' := Ledger.contract hc
  have hx' : x.toUserBlock ∈ h.users := List.mem_map_of_mem hx
  rw [perform, hhook]
  refine received_consistent hc hcons (.reallocate (h.sanitizer.redzones.block x.toUserBlock).addr)
    (fun _ hy => (List.mem_filter.mp hy).1) (fun _ => rfl) ?_
    (fun hplain => Redzones.asked_reallocate hcons.valid (placed hc hcons hx) hplain)
    (mirrors_reallocate hc hcons hx len) hrun log
  rw [users_filter]
  exact Redzones.serves_reallocate hc' hcons.valid hcons.secured hx' len

/-- A block that is resized is entered in the ledger as what the allocator knows it by, -/
theorem asked_of_reallocate {x : HookBlock} (hx : x ∈ h.live) {len : UInt64} {o : Outcome (HeapError E) Address}
    {m' : Machine (Ledger A)}
    (hrun : (h.sanitizer.redzones.reallocate h.sanitizer.shadow? x.user len).run h.machine = (o, m')) :
    h.sanitizer.redzones.Asked len (.reallocate x.header) h.machine.allocator o m'.allocator := by
  obtain ⟨m₁, hplain, halike⟩ := (mirrors_reallocate hc hcons hx len).eq_run hrun
  rw [halike.allocator_eq, ← (hcons.laidOut x hx).block_addr]
  exact Redzones.asked_reallocate hcons.valid (placed hc hcons hx) hplain

/-- and so is one that is given back. -/
theorem run_free {x : HookBlock} (hx : x ∈ h.live) {o : Outcome (HeapError E) Unit} {m' : Machine (Ledger A)}
    (hrun : (h.sanitizer.redzones.free h.sanitizer.shadow? x.user).run h.machine = (o, m')) :
    ∃ answer, m'.allocator.entries = h.machine.allocator.entries ++ [(.free x.header, answer)] ∧
      (o = .done () ↔ answer = .took) ∧
      h.sanitizer.redzones.Secured (fun a => Valid a.inner) m'.allocator m'.memory
        (if answer = .took then h.users.filter (·.user ≠ x.user) else h.users) := by
  have hc' := Ledger.contract hc
  have hx' : x.toUserBlock ∈ h.users := List.mem_map_of_mem hx
  have hserves := Redzones.serves_free hc' hcons.valid hcons.secured hx'
  have hmirrors := hcons.mirrors (h.sanitizer.redzones.free · x.user) fun s hs =>
    Redzones.mirrors_free hs hcons.valid hc' hcons.secured (.refl _ _) hx'
  obtain ⟨m₁, hplain, halike⟩ := hmirrors.eq_run hrun
  obtain ⟨answer, hentries, htook⟩ := Redzones.entries_free hcons.valid (placed hc hcons hx) hplain
  rw [(hcons.laidOut x hx).block_addr, ← halike.allocator_eq] at hentries
  refine ⟨answer, hentries, htook, ?_⟩
  split_ifs with hanswer
  · obtain rfl := htook.mpr hanswer
    exact (hserves.done _ _ hplain).1.of_alike hc' hcons.valid halike
  · refine (hserves.refused _ _ hplain ?_).1.of_alike hc' hcons.valid halike
    rintro ⟨⟩ rfl
    exact hanswer (htook.mp rfl)

theorem free_consistent {x : HookBlock} (hx : x ∈ h.live) : (h.perform (.free x.user)).Consistent shadow Valid := by
  rcases hrun : (h.sanitizer.redzones.free h.sanitizer.shadow? x.user).run h.machine with ⟨o, m'⟩
  obtain ⟨o', log, hhook, -⟩ := Sanitizer.run_freeHook hrun
  obtain ⟨answer, hentries, -, hsecured⟩ := run_free hc hcons hx hrun
  have hlast : m'.allocator.lastAnswer? = some answer := by simp [Ledger.lastAnswer?, hentries]
  rw [perform, hhook]
  simp only [hlast, Option.some.injEq]
  refine hcons.of_touched ?_ fun y hy => ?_
  · split_ifs at hsecured ⊢ with hanswer
    · rw [users_filter]
      exact hsecured
    · exact hsecured
  · have hy : y ∈ h.live := by
      split_ifs at hy
      · exact (List.mem_filter.mp hy).1
      · exact hy
    exact (hcons.laidOut y hy).later (hentries ▸ List.prefix_append _ _)

theorem free_zero_consistent : (h.perform (.free 0)).Consistent shadow Valid := by
  obtain ⟨o', log, hhook, -⟩ := Sanitizer.run_freeHook (s := h.sanitizer)
    (Redzones.run_free_zero h.sanitizer.redzones h.sanitizer.shadow? h.machine)
  rw [perform, hhook, filter_zero hc hcons]
  simp only [ite_self]
  exact hcons.of_touched hcons.secured hcons.laidOut

theorem store_consistent {x : HookBlock} (hx : x ∈ h.live) {addr : Address} {bytes : List UInt8}
    (hin : (HeapCall.store addr bytes).Concerns x.toUserBlock) :
    (h.perform (.store addr bytes)).Consistent shadow Valid := by
  have hx' : x.toUserBlock ∈ h.users := List.mem_map_of_mem hx
  have hallowed : (HeapCall.store addr bytes).Allowed h.users := Or.inr ⟨_, hx', hin⟩
  have hstored := (RedzoneHeap.store_preserved (h := { machine := h.machine, live := h.users }) (Ledger.contract hc)
    hcons.valid hcons.secured hx' hin).secured
  rw [RedzoneHeap.step_of_allowed hallowed] at hstored
  exact ⟨hcons.valid, hcons.tracked, hstored, hcons.laidOut, hcons.used⟩

/-- An attempt to initialize adopts no other redzones while there are blocks in use. -/
theorem init_consistent {layout : Layout} (hlayout : layout.shadowMap.cells ⊆ shadow) (config : Config) :
    (h.step (.init layout config)).Consistent shadow Valid := by
  obtain ⟨hattempted, halike⟩ := h.sanitizer.init_attempted layout config h.machine
  have hsecured := hcons.secured.of_alike (Ledger.contract hc) hcons.valid (halike.mono hlayout)
  have hlaidOut := hcons.laidOut
  rw [← halike.allocator_eq] at hlaidOut
  rw [step]
  generalize h.sanitizer.init layout config h.machine = ended at hattempted halike hsecured hlaidOut
  obtain ⟨o, sanitizer, m'⟩ := ended
  dsimp only at hattempted hsecured hlaidOut ⊢
  cases hattempted with
  | @kept context hcontext =>
    have hredzones : ({ h.sanitizer with context } : Sanitizer).redzones = h.sanitizer.redzones := by
      rw [Sanitizer.redzones, hcontext, Sanitizer.redzones]
    have hshadow : ({ h.sanitizer with context } : Sanitizer).shadow? = h.sanitizer.shadow? := by
      rw [Sanitizer.shadow?, hcontext, Sanitizer.shadow?]
    constructor
    case valid => rw [hredzones]; exact hcons.valid
    case tracked => rw [hshadow]; exact hcons.tracked
    case secured => rw [hredzones]; exact hsecured
    case laidOut => rw [hredzones]; exact hlaidOut
    case used => rw [hcontext]; exact hcons.used
  | @made c hnone hshadow hconfig hvalid hused =>
    have hold : h.sanitizer.redzones = {} := by
      rw [Sanitizer.redzones, hnone]
      rfl
    -- the new redzones are the old ones, or there is no block
    have hlive : h.live ≠ [] → c.redzones = h.sanitizer.redzones := fun hlive => by
      rw [hold]
      exact hused (hcons.used hnone hlive)
    constructor
    case valid => exact Redzones.valid_of_validate (hconfig ▸ hvalid)
    case tracked =>
      rintro s ⟨⟩
      rw [hshadow]
      exact hlayout
    case secured =>
      show c.redzones.Secured _ _ _ _
      by_cases hempty : h.live = []
      · have husers : h.users = [] := by rw [users, hempty]; rfl
        rw [show HookHeap.users { h with sanitizer := _, machine := m' } = h.users from rfl]
        rw [husers] at hsecured ⊢
        exact ⟨hsecured.valid, by simp⟩
      · rw [hlive hempty]
        exact hsecured
    case laidOut =>
      intro x hx
      show x.LaidOut c.redzones _
      rw [hlive (List.ne_nil_of_mem hx)]
      exact hlaidOut x hx
    case used => exact nofun

/-- Every call keeps the redzones in force those of the blocks in use. -/
theorem step_consistent {call : HookCall}
    (hinit : ∀ layout config, call = .init layout config → layout.shadowMap.cells ⊆ shadow) :
    (h.step call).Consistent shadow Valid := by
  cases call with
  | init layout config => exact init_consistent hc hcons (hinit layout config rfl) config
  | heap call =>
    rw [step]
    split_ifs with hallowed
    case neg => exact hcons
    have hblock {y : UserBlock} (hy : y ∈ h.users) : ∃ x ∈ h.live, x.toUserBlock = y := List.mem_map.mp hy
    cases call with
    | allocate len => exact allocate_consistent hc hcons len
    | reallocate user len =>
      rcases hallowed with rfl | ⟨y, hy, rfl⟩
      · exact reallocate_zero_consistent hc hcons len
      · obtain ⟨x, hx, rfl⟩ := hblock hy
        exact reallocate_consistent hc hcons hx len
    | free user =>
      rcases hallowed with rfl | ⟨y, hy, rfl⟩
      · exact free_zero_consistent hc hcons
      · obtain ⟨x, hx, rfl⟩ := hblock hy
        exact free_consistent hc hcons hx
    | store addr bytes =>
      obtain ⟨y, hy, hin⟩ := hallowed.resolve_left id
      obtain ⟨x, hx, rfl⟩ := hblock hy
      exact store_consistent hc hcons hx hin

theorem run_consistent (calls : List HookCall)
    (hinit : ∀ layout config, .init layout config ∈ calls → layout.shadowMap.cells ⊆ shadow) :
    (h.run calls).Consistent shadow Valid := by
  induction calls generalizing h with
  | nil => exact hcons
  | cons call calls ih =>
    refine ih (step_consistent hc hcons fun layout config heq => ?_) fun layout config hmem =>
      hinit layout config (List.mem_cons_of_mem _ hmem)
    exact hinit layout config (heq ▸ List.mem_cons_self ..)

end Step

/-- A fresh sanitizer has the default redzones, and no block is in use. -/
theorem consistent_of_fresh {m : Machine (Ledger A)} (hfresh : Valid m.allocator.inner m.memory []) :
    Consistent shadow Valid { machine := m } where
  valid := Redzones.valid_of_validate (c := {}) rfl
  tracked := nofun
  secured := ⟨hfresh, by simp [users]⟩
  laidOut := by simp
  used _ hlive := absurd rfl hlive

end HookHeap

namespace Sanitizer

/-- **The hooks find every block by its header.** Take an allocator that keeps the contract, and keep a ledger of its
dealings. Let a program call the heap hooks, store into its blocks, and try to initialize the sanitizer, with any
configurations and any layouts whose shadow regions are no business of the allocator; the attempts may succeed, fail or trap.
At every state the redzones in force are those that every block in use was laid out with. So from the user's address of the
block, as old as it may be, its hooks find the header that the allocator gave, and there the user's length in whole granules;
and this header is what they give to the allocator. If there is a context and its map holds the block, giving it back marks
exactly these granules freed, once the allocator has taken it and has left the shadow bytes alone. -/
theorem hooks_find_headers [HeapAllocator A E] {shadow : Footprint} {Valid : A → Memory → List Block → Prop}
    (hcontract : HeapAllocator.Contract (A := A) shadow Valid) (m : Machine (Ledger A))
    (hfresh : Valid m.allocator.inner m.memory []) (calls : List HookCall)
    (hinit : ∀ layout config, .init layout config ∈ calls → layout.shadowMap.cells ⊆ shadow) :
    let h := HookHeap.run { machine := m } calls
    let entries := h.machine.allocator.entries
    ∀ x ∈ h.live, x.LaidOut h.sanitizer.redzones h.machine.allocator ∧
      h.sanitizer.redzones.headerOf? x.user = some x.header ∧
      (h.machine.memory.readWord x.header).toNat = roundUp x.len.toNat ∧
      (∀ len, match h.sanitizer.redzones.blockSize? len with
        | none => (h.sanitizer.reallocateHook x.user len h.machine).2.2.allocator.entries = entries
        | some size => ∃ answer, (h.sanitizer.reallocateHook x.user len h.machine).2.2.allocator.entries =
            entries ++ [(.reallocate x.header size.total, answer)]) ∧
      (∃ answer, (h.sanitizer.freeHook x.user h.machine).2.2.allocator.entries =
        entries ++ [(.free x.header, answer)]) ∧
      ∀ c, h.sanitizer.context.get? = some c →
        c.shadow.Covers x.user.toNat (x.user.toNat + roundUp x.len.toNat) → ∀ m₁,
          (HeapAllocator.free x.header : Action (Ledger A) E Unit).run
            { h.machine with log := h.machine.log.push (.free x.user) } = (.done (), m₁) →
          h.machine.memory.SameAt c.shadow.bytes m₁.memory →
          (h.sanitizer.freeHook x.user h.machine).1 = .done () ∧
            c.shadow.Writes x.user.toNat (x.user.toNat + roundUp x.len.toNat) (fun _ => 0xfd) h.machine.memory
              (h.sanitizer.freeHook x.user h.machine).2.2.memory := by
  intro h entries x hx
  have hcons : h.Consistent shadow Valid :=
    HookHeap.run_consistent hcontract (HookHeap.consistent_of_fresh hfresh) calls hinit
  have hlaidOut := hcons.laidOut x hx
  have hplaced := HookHeap.placed hcontract hcons hx
  have hrecords := hcons.secured.records x.toUserBlock (List.mem_map_of_mem hx)
  have hheader : x.user - h.sanitizer.redzones.head = x.header := hlaidOut.block_addr
  have hrecorded := hrecords.recorded
  rw [hheader] at hrecorded
  refine ⟨hlaidOut, ?_, hrecorded, fun len => ?_, ?_, fun c hc hcovers m₁ hask hkept => ?_⟩
  · rw [← hheader]
    exact hplaced.headerOf?_user
  · rcases hrun : (h.sanitizer.redzones.reallocate h.sanitizer.shadow? x.user len).run h.machine with ⟨o, m'⟩
    obtain ⟨log, hhook⟩ := run_reallocateHook hrun
    have hasked := HookHeap.asked_of_reallocate hcontract hcons hx hrun
    rw [hhook]
    cases hasked with
    | tooLong hsize hledger =>
      rw [hsize]
      exact congrArg Ledger.entries hledger
    | refused hsize _ hentries | gave hsize _ hentries =>
      rw [hsize]
      exact ⟨_, hentries⟩
  · rcases hrun : (h.sanitizer.redzones.free h.sanitizer.shadow? x.user).run h.machine with ⟨o, m'⟩
    obtain ⟨o', log, hhook, -⟩ := run_freeHook hrun
    obtain ⟨answer, hentries, -⟩ := HookHeap.run_free hcontract hcons hx hrun
    rw [hhook]
    exact ⟨answer, hentries⟩
  · have hlt := hplaced.stop_lt
    have hstop : h.sanitizer.redzones.stop x.toUserBlock =
        x.user.toNat + roundUp x.len.toNat + h.sanitizer.redzones.tail.toNat := rfl
    have hshadow : h.sanitizer.shadow? = some c.shadow := by rw [shadow?, hc]; rfl
    rw [← hheader] at hask hrecorded
    obtain ⟨m', hrun, -, hwrites, -⟩ := Redzones.run_free_of_covers hcons.valid hplaced.head_le hplaced.user_mod
      (roundUp_mod _) (by omega) hcovers hrecorded hask hkept
    rw [← hshadow] at hrun
    obtain ⟨answer, log, hhook, hdone⟩ := run_freeHook hrun
    rw [hhook]
    exact ⟨hdone rfl, hwrites⟩

/-- a layout whose map covers memory up to 0xc00 -/
def lowLayout : Layout :=
  { shadowStart := 0x100, shadowSize := 0x180, lowEnd := 0x1000, highStart := 0x1000, highEnd := 0x10000 }

/-- a layout whose map does not hold the shadow bytes of its own region -/
def strayLayout : Layout :=
  { shadowStart := 0x300, shadowSize := 0x20, shadowOffset := 0, lowEnd := 0x1000, highStart := 0x1000, highEnd := 0x10000 }

/-- a region of one kilobyte that the low layout covers -/
def lowHeap : Bump := ⟨0x800, 0xc00, 0x800, 64⟩

/-- A block is handed out before there is a context. Then larger redzones are refused, and the stray layout too, after it
has cleared its map; the low layout is taken. -/
def earlyCalls : List HookCall :=
  [.heap (.allocate 10), .init lowLayout { headRedzone := 128 }, .init strayLayout {}, .heap (.store 0x880 [7]),
    .init lowLayout {}]

/-- When the early block is given back, the allocator gets the header that it gave, and the block's two granules are marked
freed. -/
theorem early_block_found :
    HeapAllocator.Contract (Footprint.program 0x800 0xc00)ᶜ (Bump.Account lowHeap) ∧
    Bump.Account lowHeap lowHeap {} [] ∧
    (∀ layout config, .init layout config ∈ earlyCalls → layout.shadowMap.cells ⊆ (Footprint.program 0x800 0xc00)ᶜ) ∧
    let h := HookHeap.run { machine := { allocator := { inner := lowHeap } } } earlyCalls
    let freed := h.sanitizer.freeHook 0x880 h.machine
    h.live = [{ user := 0x880, len := 10, header := 0x840, redzones := {} }] ∧
    h.sanitizer.shadow? = some lowLayout.shadowMap ∧ h.sanitizer.redzones = {} ∧
    freed.2.2.allocator.entries = [(.allocate 0x70, .gave 0x840), (.free 0x840, .took)] ∧
    lowLayout.shadowMap.Writes 0x880 0x890 (fun _ => 0xfd) h.machine.memory freed.2.2.memory := by
  have hregion : Bump.ofRegion 0x800 0x400 64 = .ok lowHeap := rfl
  have hcontract : HeapAllocator.Contract (Footprint.program 0x800 0xc00)ᶜ (Bump.Account lowHeap) :=
    Bump.contract_of_ofRegion hregion (by decide) (Footprint.compl_avoids subset_rfl)
  have hfresh := Bump.account_of_ofRegion hregion {}
  have hbelow {s : ShadowMap} (hs : s.base.toNat + s.len.toNat ≤ 0x800) :
      s.cells ⊆ (Footprint.program 0x800 0xc00)ᶜ :=
    (ShadowMap.cells_avoids (show s.base.toNat + s.len.toNat ≤ 2 ^ 64 by omega) (Or.inl hs)).subset_compl
  have hinit : ∀ layout config, .init layout config ∈ earlyCalls →
      layout.shadowMap.cells ⊆ (Footprint.program 0x800 0xc00)ᶜ := by
    intro layout config hmem
    simp only [earlyCalls, List.mem_cons, HookCall.init.injEq, reduceCtorEq, false_or, List.not_mem_nil, or_false] at hmem
    rcases hmem with ⟨rfl, -⟩ | ⟨rfl, -⟩ | ⟨rfl, -⟩ <;> exact hbelow (by decide)
  have hcovers : lowLayout.shadowMap.Covers 0x880 0x890 :=
    ShadowMap.covers_of_le (show 0x100 + 0x180 ≤ 2 ^ 64 by decide) (by decide) (by decide)
  refine ⟨hcontract, hfresh, hinit, ?_⟩
  intro h freed
  have hlive : h.live = [{ user := 0x880, len := 10, header := 0x840, redzones := {} }] := by decide +kernel
  have hshadow : h.sanitizer.shadow? = some lowLayout.shadowMap := by decide +kernel
  refine ⟨hlive, hshadow, by decide +kernel, by decide +kernel, ?_⟩
  obtain ⟨c, hc, hmap⟩ := Option.map_eq_some_iff.mp hshadow
  obtain ⟨-, -, -, -, -, hfreed⟩ := hooks_find_headers hcontract { allocator := { inner := lowHeap } } hfresh
    earlyCalls hinit { user := 0x880, len := 10, header := 0x840, redzones := {} } (hlive ▸ List.mem_singleton.mpr rfl)
  have huser : (0x880 : UInt64).toNat = 0x880 := by decide
  have hgranules : roundUp (10 : UInt64).toNat = 0x10 := by decide
  simp only [huser, hgranules, Nat.reduceAdd] at hfreed
  have hfreed := hfreed c hc
  rw [hmap] at hfreed
  have hask : ((HeapAllocator.free 0x840 : Action (Ledger Bump) BumpError Unit).run
      { h.machine with log := h.machine.log.push (.free 0x880) }).1 = .done () := by decide +kernel
  have hmemory (m : Machine (Ledger Bump)) :
      ((HeapAllocator.free 0x840 : Action (Ledger Bump) BumpError Unit).run m).2.memory = m.memory :=
    Bump.memory_free 0x840 { m with allocator := m.allocator.inner }
  have hwrites := (hfreed hcovers _ (Prod.fst_eq_iff.mp hask) (by rw [hmemory]; exact Memory.SameOutside.refl _ _)).2
  convert hwrites using 1

end Sanitizer

end AddressSanitizer
