/-
Runs of a program on a heap with redzones. A program allocates, resizes and gives back blocks and stores into the blocks it
holds, in any order and with any lengths, on any allocator that keeps the contract. It is assumed to keep to its side: it
resizes and gives back blocks in use or address zero, and stores into blocks in use.

- `RedzoneHeap`: a machine with some allocator, the blocks in use on it, and how the calls so far have ended.
- `step_preserved`: without a shadow map, a call keeps the blocks in use secured, and the bytes of those it is not about.
- `step_lockstep`, `run_lockstep`: a run with a shadow map stays in step with one without, by induction on the calls. The
  two cannot be told apart but by their shadow bytes and their logs.
-/
import Mathlib.Tactic
import AddressSanitizer.Proofs.BumpContract
import AddressSanitizer.Proofs.RedzoneContract

namespace AddressSanitizer

variable {A E : Type}

/-- what a program does with a heap -/
inductive HeapCall where
  | allocate (len : UInt64)
  | reallocate (user : Address) (len : UInt64)
  | free (user : Address)
  /-- writes bytes, the first one at `addr` -/
  | store (addr : Address) (bytes : List UInt8)
  deriving DecidableEq, Repr

namespace HeapCall

/-- the call resizes the block, gives it back or stores into it -/
def Concerns (x : UserBlock) : HeapCall → Prop
  | allocate _ => False
  | reallocate user _ | free user => user = x.user
  | store addr bytes => x.user.toNat ≤ addr.toNat ∧ addr.toNat + bytes.length ≤ x.user.toNat + x.len.toNat

instance (x : UserBlock) : (call : HeapCall) → Decidable (call.Concerns x)
  | allocate _ => inferInstanceAs (Decidable False)
  | reallocate user _ | free user => inferInstanceAs (Decidable (user = x.user))
  | store _ _ => inferInstanceAs (Decidable (_ ∧ _))

/-- the call names address zero, which belongs to no block -/
def NamesZero : HeapCall → Prop
  | reallocate user _ | free user => user = 0
  | allocate _ | store .. => False

instance : (call : HeapCall) → Decidable call.NamesZero
  | reallocate user _ | free user => inferInstanceAs (Decidable (user = 0))
  | allocate _ | store .. => inferInstanceAs (Decidable False)

/-- An allocation may always be asked for; every other call must concern a block in use, or name address zero. -/
def Allowed (live : List UserBlock) : HeapCall → Prop
  | .allocate _ => True
  | call => call.NamesZero ∨ ∃ x ∈ live, call.Concerns x

instance (live : List UserBlock) : (call : HeapCall) → Decidable (call.Allowed live)
  | allocate _ => inferInstanceAs (Decidable True)
  | reallocate .. | free _ | store .. => inferInstanceAs (Decidable (_ ∨ _))

/-- what the call does to a machine; the address of a block that it hands out is its value -/
def act [HeapAllocator A E] (r : Redzones) (shadow? : Option ShadowMap) : HeapCall → Action A (HeapError E) (Option Address)
  | allocate len => do return some (← r.allocate shadow? len)
  | reallocate user len => do return some (← r.reallocate shadow? user len)
  | free user => do
    r.free shadow? user
    return none
  | store addr bytes => do
    Action.modifyMemory (·.writeBytes addr bytes)
    return none

/-- the blocks in use after the call has ended; a call that is refused takes none away -/
def liveAfter (live : List UserBlock) : HeapCall → Outcome (HeapError E) (Option Address) → List UserBlock
  | allocate len, .done (some user) => ⟨user, len⟩ :: live
  | reallocate user len, .done (some moved) => ⟨moved, len⟩ :: live.filter (·.user ≠ user)
  | free user, .done _ => live.filter (·.user ≠ user)
  | _, _ => live

theorem liveAfter_of_not_done {call : HeapCall} {live : List UserBlock} {answer : Outcome (HeapError E) (Option Address)}
    (h : ∀ v, answer ≠ .done v) : call.liveAfter live answer = live := by
  cases answer with
  | done v => exact absurd rfl (h v)
  | failed e => cases call <;> rfl
  | trapped t => cases call <;> rfl

end HeapCall

/-- a machine with some allocator, the blocks in use on it, and how the calls so far have ended -/
structure RedzoneHeap (A E : Type) where
  machine : Machine A
  live : List UserBlock := []
  answers : List (Outcome (HeapError E) (Option Address)) := []

namespace RedzoneHeap

variable {r : Redzones} {s : ShadowMap} {shadow : Footprint} {Valid : A → Memory → List Block → Prop}
  {h h' : RedzoneHeap A E} {x y : UserBlock} {call : HeapCall}

/-- the blocks in use are those of the allocator -/
def Secured (r : Redzones) (Valid : A → Memory → List Block → Prop) (h : RedzoneHeap A E) : Prop :=
  r.Secured Valid h.machine.allocator h.machine.memory h.live

/-- The block is still in use, with the bytes it had. -/
structure Keeps (h h' : RedzoneHeap A E) (y : UserBlock) : Prop where
  mem : y ∈ h'.live
  bytes : ∀ a : Address, y.user.toNat ≤ a.toNat → a.toNat < y.user.toNat + y.len.toNat →
    h'.machine.memory.read .program a = h.machine.memory.read .program a

/-- What a call leaves behind: blocks that are secured, and every block that the call is not about. -/
structure Preserved (r : Redzones) (Valid : A → Memory → List Block → Prop) (h h' : RedzoneHeap A E) (call : HeapCall) :
    Prop where
  secured : h'.Secured r Valid
  keeps : ∀ y ∈ h.live, ¬call.Concerns y → h.Keeps h' y

theorem Preserved.refl (hsecured : h.Secured r Valid) (call : HeapCall) : h.Preserved r Valid h call :=
  ⟨hsecured, fun _ hy _ => ⟨hy, fun _ _ _ => rfl⟩⟩

theorem keeps_of_sameAt {others : List UserBlock} (hlive : y ∈ h'.live)
    (hsame : h.machine.memory.SameAt (Footprint.users others) h'.machine.memory) (hy : y ∈ others) : h.Keeps h' y :=
  ⟨hlive, fun a h1 h2 => hsame _ a fun hnot => hnot ⟨y, hy, rfl, h1, h2⟩⟩

/-- On a fresh bump allocator no block is in use. -/
theorem secured_of_ofRegion {m : Machine Bump} {start len align : UInt64} (r : Redzones)
    (h : Bump.ofRegion start len align = .ok m.allocator) :
    ({ machine := m } : RedzoneHeap Bump BumpError).Secured r (Bump.Account m.allocator) :=
  ⟨Bump.account_of_ofRegion h m.memory, by simp⟩

variable [HeapAllocator A E]

/-- a call, unless the program has no right to it -/
def step (r : Redzones) (shadow? : Option ShadowMap) (h : RedzoneHeap A E) (call : HeapCall) : RedzoneHeap A E :=
  if call.Allowed h.live then
    match (call.act r shadow?).run h.machine with
    | (answer, machine) => { machine, live := call.liveAfter h.live answer, answers := h.answers ++ [answer] }
  else h

def run (r : Redzones) (shadow? : Option ShadowMap) (h : RedzoneHeap A E) (calls : List HeapCall) : RedzoneHeap A E :=
  calls.foldl (step r shadow?) h

theorem step_of_allowed (hallowed : call.Allowed h.live) (shadow? : Option ShadowMap) :
    h.step r shadow? call =
      { machine := ((call.act r shadow?).run h.machine).2
        live := call.liveAfter h.live ((call.act r shadow?).run h.machine).1
        answers := h.answers ++ [((call.act r shadow?).run h.machine).1] } := by
  rw [step, if_pos hallowed]

/-! ## Without a shadow map -/

section Untracked

variable (hc : HeapAllocator.Contract (A := A) shadow Valid) (hr : r.Valid) (hsecured : h.Secured r Valid)

/-- A call whose operation serves the owners of the blocks that it is not about preserves these. -/
theorem preserved_of_serves {α : Type} {op : Action A (HeapError E) α} {value : α → Option Address}
    {others : List UserBlock} {new : α → List UserBlock} (hallowed : call.Allowed h.live)
    (hact : call.act r none = op >>= fun v => pure (value v))
    (hserves : HeapAllocator.Serves (r.Secured Valid) Footprint.users op h.machine h.live others new)
    (hdone : ∀ v, call.liveAfter h.live (.done (value v) : Outcome (HeapError E) _) = new v ++ others)
    (hothers : ∀ y ∈ h.live, ¬call.Concerns y → y ∈ others) : h.Preserved r Valid (h.step r none call) call := by
  rw [step_of_allowed hallowed, hact, Action.run_bind]
  rcases hrun : op.run h.machine with ⟨v | e | t, m'⟩
  case done =>
    obtain ⟨hvalid, hsame⟩ := hserves.done _ _ hrun
    have hlive := hdone v
    refine ⟨?_, fun y hy hout => keeps_of_sameAt ?_ hsame (hothers y hy hout)⟩
    · show r.Secured Valid m'.allocator m'.memory (call.liveAfter h.live (.done (value v)))
      rw [hlive]
      exact hvalid
    · show y ∈ call.liveAfter h.live (.done (value v))
      rw [hlive]
      exact List.mem_append_right _ (hothers y hy hout)
  all_goals
    obtain ⟨hvalid, hsame⟩ := hserves.refused _ _ hrun (by exact nofun)
    refine ⟨?_, fun y hy hout => keeps_of_sameAt ?_ hsame hy⟩
    · show r.Secured Valid m'.allocator m'.memory (call.liveAfter h.live _)
      rw [HeapCall.liveAfter_of_not_done (by exact nofun)]
      exact hvalid
    · show y ∈ call.liveAfter h.live _
      rw [HeapCall.liveAfter_of_not_done (by exact nofun)]
      exact hy

include hc hr hsecured

theorem filter_zero : h.live.filter (·.user ≠ 0) = h.live :=
  List.filter_eq_self.mpr fun _ hx => decide_eq_true ((Redzones.Secured.placed hc hr hsecured hx).user_ne_zero hr)

theorem allocate_preserved (len : UInt64) : h.Preserved r Valid (h.step r none (.allocate len)) (.allocate len) :=
  preserved_of_serves trivial rfl (Redzones.serves_allocate hc hr hsecured len) (fun _ => rfl) fun _ hy _ => hy

theorem reallocate_preserved (hx : x ∈ h.live) (len : UInt64) :
    h.Preserved r Valid (h.step r none (.reallocate x.user len)) (.reallocate x.user len) := by
  refine preserved_of_serves (Or.inr ⟨x, hx, rfl⟩) rfl (Redzones.serves_reallocate hc hr hsecured hx len) (fun _ => rfl)
    fun y hy hout => ?_
  have hne : x.user ≠ y.user := hout
  simpa [hy] using Ne.symm hne

theorem reallocate_zero_preserved (len : UInt64) :
    h.Preserved r Valid (h.step r none (.reallocate 0 len)) (.reallocate 0 len) := by
  have hserves := Redzones.serves_allocate (m := { h.machine with log := h.machine.log.push (.realloc 0 len) }) hc hr
    hsecured len
  refine preserved_of_serves (Or.inl rfl) rfl (hserves.congr rfl (Redzones.run_reallocate_zero r none len h.machine))
    (fun user => ?_) fun _ hy _ => hy
  show ⟨user, len⟩ :: h.live.filter (·.user ≠ 0) = _
  rw [filter_zero hc hr hsecured]
  rfl

theorem free_preserved (hx : x ∈ h.live) : h.Preserved r Valid (h.step r none (.free x.user)) (.free x.user) := by
  refine preserved_of_serves (Or.inr ⟨x, hx, rfl⟩) rfl (Redzones.serves_free hc hr hsecured hx) (fun _ => rfl)
    fun y hy hout => ?_
  have hne : x.user ≠ y.user := hout
  simpa [hy] using Ne.symm hne

theorem free_zero_preserved : h.Preserved r Valid (h.step r none (.free 0)) (.free 0) := by
  have hserves : HeapAllocator.Serves (r.Secured Valid) Footprint.users (r.free none (0 : Address)) h.machine h.live
      h.live fun _ => [] :=
    .of_done (Redzones.run_free_zero r none h.machine) hsecured (Memory.SameOutside.refl _ _)
  exact preserved_of_serves (Or.inl rfl) rfl hserves (fun _ => filter_zero hc hr hsecured) fun _ hy _ => hy

/-- Storing into a block in use changes none of the others, and none of the words that the allocator and the redzones
keep. -/
theorem store_preserved (hx : x ∈ h.live) {addr : Address} {bytes : List UInt8}
    (hin : (HeapCall.store addr bytes).Concerns x) :
    h.Preserved r Valid (h.step r none (.store addr bytes)) (.store addr bytes) := by
  obtain ⟨hlo, hhi⟩ : x.user.toNat ≤ addr.toNat ∧ addr.toNat + bytes.length ≤ x.user.toNat + x.len.toNat := hin
  have hplaced := Redzones.Secured.placed hc hr hsecured hx
  have hxspan := hplaced.spans hr
  have hlt := hplaced.stop_lt
  have hsame : h.machine.memory.SameOutside _ (h.machine.memory.writeBytes addr bytes) :=
    Memory.sameOutside_writeBytes (by omega)
  have hblocks := hplaced.program_subset_blocks hx (show r.start x ≤ addr.toNat by omega)
    (show addr.toNat + bytes.length ≤ r.stop x by omega)
  have hallowed : (HeapCall.store addr bytes).Allowed h.live := Or.inr ⟨x, hx, hlo, hhi⟩
  rw [step_of_allowed hallowed]
  refine ⟨⟨hc.owned hsecured.valid (hsame.mono (hblocks.trans Set.subset_union_right)), fun y hy => ?_⟩,
    fun y hy hout => ⟨hy, fun a h1 h2 => hsame _ _ ?_⟩⟩
  · have hyspan := (hsecured.records y hy).toFits.spans hr
    have huser := y.user.toNat_lt
    refine (hsecured.records y hy).frame hsame (Footprint.avoids_program ?_) (by omega)
    by_cases hxy : x = y
    · rw [hxy] at hlo
      omega
    · have := Redzones.Secured.apart hc hr hsecured hx hy hxy
      omega
  · have hyspan := (hsecured.records y hy).toFits.spans hr
    have hxy : x ≠ y := by
      rintro rfl
      exact hout ⟨hlo, hhi⟩
    have hapart := Redzones.Secured.apart hc hr hsecured hx hy hxy
    rintro ⟨-, h3, h4⟩
    have h3 : addr.toNat ≤ a.toNat := h3
    have h4 : a.toNat < addr.toNat + bytes.length := h4
    omega

/-- Every call keeps the blocks in use secured, and those that it is not about as they are. -/
theorem step_preserved (call : HeapCall) : h.Preserved r Valid (h.step r none call) call := by
  by_cases hallowed : call.Allowed h.live
  · cases call with
    | allocate len => exact allocate_preserved hc hr hsecured len
    | reallocate user len =>
      rcases hallowed with rfl | ⟨x, hx, rfl⟩
      · exact reallocate_zero_preserved hc hr hsecured len
      · exact reallocate_preserved hc hr hsecured hx len
    | free user =>
      rcases hallowed with rfl | ⟨x, hx, rfl⟩
      · exact free_zero_preserved hc hr hsecured
      · exact free_preserved hc hr hsecured hx
    | store addr bytes =>
      obtain ⟨x, hx, hin⟩ := hallowed.resolve_left id
      exact store_preserved hc hr hsecured hx hin
  · rw [step, if_neg hallowed]
    exact .refl hsecured call

/-- So do runs. -/
theorem run_secured (calls : List HeapCall) : (h.run r none calls).Secured r Valid := by
  induction calls generalizing h with
  | nil => exact hsecured
  | cons call calls ih => exact ih (step_preserved hc hr hsecured call).secured

end Untracked

/-! ## With and without a shadow map -/

/-- The two heaps have the same blocks in use and the same history, and their machines are alike. -/
structure Lockstep (F : Footprint) (h h' : RedzoneHeap A E) : Prop where
  live_eq : h'.live = h.live
  answers_eq : h'.answers = h.answers
  alike : h.machine.Alike F h'.machine

section Tracked

variable (hc : HeapAllocator.Contract (A := A) s.cells Valid) (hr : r.Valid) (hsecured : h.Secured r Valid)
include hc hr hsecured

/-- With a shadow map, a call mirrors what it does without. -/
theorem act_mirrors (hallowed : call.Allowed h.live) {m' : Machine A} (halike : h.machine.Alike s.cells m') :
    (call.act r none).Mirrors s.cells (call.act r (some s)) h.machine m' := by
  cases call with
  | allocate len =>
    exact .bind (Redzones.mirrors_allocate subset_rfl hr hc hsecured halike len) fun user _ _ _ h₁ => .pure h₁ (some user)
  | reallocate user len =>
    refine .bind ?_ fun moved _ _ _ h₁ => .pure h₁ (some moved)
    rcases hallowed with rfl | ⟨x, hx, rfl⟩
    · exact Redzones.mirrors_reallocate_zero subset_rfl hr hc hsecured halike len
    · exact Redzones.mirrors_reallocate subset_rfl hr hc hsecured halike hx len
  | free user =>
    refine .bind ?_ fun _ _ _ _ h₁ => .pure h₁ none
    rcases hallowed with rfl | ⟨x, hx, rfl⟩
    · exact .bind (.emit halike _ _) fun _ _ _ _ h₁ => .pure h₁ ()
    · exact Redzones.mirrors_free subset_rfl hr hc hsecured halike hx
  | store addr bytes =>
    exact .bind (.modifyMemory halike (halike.memory_same.writeBytes addr bytes)) fun _ _ _ _ h₁ => .pure h₁ none

theorem step_lockstep (hlock : h.Lockstep s.cells h') (call : HeapCall) :
    (h.step r none call).Lockstep s.cells (h'.step r (some s) call) := by
  obtain ⟨hlive, hanswers, halike⟩ := hlock
  by_cases hallowed : call.Allowed h.live
  · obtain ⟨houtcome, halike'⟩ := act_mirrors hc hr hsecured hallowed halike
    rw [step_of_allowed hallowed, step_of_allowed (by rwa [hlive]), houtcome, hlive, hanswers]
    exact ⟨rfl, rfl, halike'⟩
  · rw [step, step, if_neg hallowed, if_neg (by rwa [hlive])]
    exact ⟨hlive, hanswers, halike⟩

theorem run_lockstep (hlock : h.Lockstep s.cells h') (calls : List HeapCall) :
    (h.run r none calls).Lockstep s.cells (h'.run r (some s) calls) := by
  induction calls generalizing h h' with
  | nil => exact hlock
  | cons call calls ih =>
    exact ih (step_preserved hc hr hsecured call).secured (step_lockstep hc hr hsecured hlock call)

end Tracked

end RedzoneHeap

end AddressSanitizer
