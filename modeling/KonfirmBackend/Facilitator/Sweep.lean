import KonfirmBackend.Facilitator.SpendGuard
import KonfirmBackend.Lib.Transition
import Mathlib.Algebra.Order.Floor.Defs
import Mathlib.Data.Rat.Floor
import Mathlib.Logic.Function.Basic

/-!
# Treasury sweeps

`FacilitatorSweepService.sweep` on any number of replicas. A run takes a database session,
tries an advisory lock on it, and, if it gets the lock, reads the facilitator's balance,
asks the spend guard, submits a transfer and gives the lock back. Between any two of its
statements other runs go on, an admin may resume signing, and time passes. Each statement
may fail, with or without an effect, and a run that fails before it gives the lock back
leaves it to its session.

## Main definitions

- `Run` — where a run is
- `World` — the tables, the lock and the runs
- `step` — one statement of a run, or of the outside
- `World.Sound` — the invariant of every run of the system
- `Capped` — what the spend cap asks of a step

## Main results

- `move_of_step` — every step is one of the cases
- `World.Sound.step` — only the holder of the lock acts on the tables, and it knows them
- `spend_capped` — the spend cap holds in every run of the system
-/

namespace KonfirmBackend.Facilitator

open Transition

def TREASURY_CONTRACT_ID : String := "CD77HPVBGIRYQGXC4JVCEO35X6FKFFJ2C4EZ63EQCOXGR6OL4TVEPZ2T"

def STROOPS_PER_UNIT : ℤ := 10000000

/-- An amount to sweep. -/
structure Stroops where
  val : ℤ
  pos : 0 < val
deriving DecidableEq

def Stroops.usdc (amount : Stroops) : ℚ := amount.val / STROOPS_PER_UNIT

/-- What is above the minimum; `minUsdc` is the number that the environment variable holds,
and a balance or a number that is not there ends the sweep. -/
def sweepStroops (balanceStroops : Option ℤ) (minUsdc : Option ℚ) : Option Stroops :=
  balanceStroops.bind fun balance =>
    minUsdc.bind fun minUsdc =>
      let minStroops := ⌊minUsdc * STROOPS_PER_UNIT + 1 / 2⌋
      if h : 0 < balance - minStroops then some ⟨balance - minStroops, h⟩ else none

/-- Where the run on a session is. -/
inductive Run
  | idle
  | locking (minUsdc : Option ℚ)
  /-- `doSweep`, up to the balance -/
  | locked (minUsdc : Option ℚ)
  /-- the two queries of the spend guard, answered in any order -/
  | checking (amount : Stroops) (halted : Option (Option ℕ)) (spentToday : Option ℚ)
  | halting (reason : String)
  | haltingReason (reason : String)
  | recording (amount : Stroops)
  | submitting (amount : Stroops)
  | unlocking
deriving DecidableEq

/-- The advisory lock: the session that holds it, and how many more times it has taken it. -/
abbrev Lock := Option (ℕ × ℕ)

namespace Lock

/-- `pg_try_advisory_lock`: a session may take its own lock again. -/
def acquire (lock : Lock) (s : ℕ) : Option (ℕ × ℕ) :=
  match lock with
  | none => some (s, 0)
  | some (holder, more) => if holder = s then some (s, more + 1) else none

/-- `pg_advisory_unlock`. -/
def release (lock : Lock) (s : ℕ) : Lock :=
  match lock with
  | some (holder, more) =>
    if holder ≠ s then some (holder, more)
    else match more with
      | 0 => none
      | more + 1 => some (holder, more)
  | none => none

/-- The session ends. -/
def drop (lock : Lock) (s : ℕ) : Lock := lock.filter fun l => decide (l.1 ≠ s)

end Lock

structure World where
  clock : ℕ
  db : SpendState
  lock : Lock
  runs : ℕ → Run
  /-- the transfers that have been submitted on chain -/
  transfers : List Stroops

/-- How a statement ends: with an answer, or with an error, in which case it may have had its
effect. -/
inductive Query
  | answered
  | failed (effective : Bool)
deriving DecidableEq

def Query.effective : Query → Bool
  | .answered => true
  | .failed effective => effective

inductive Action
  /-- the time for a sweep has come; the environment variable may be unset, or no number -/
  | sweep (s : ℕ) (minUsdcRaw : Option (Option ℚ))
  | tryLock (s : ℕ) (q : Query)
  /-- the balance, if the signer and the balance can be read -/
  | balance (s : ℕ) (stroops : Option ℤ)
  | readHalted (s : ℕ) (answers : Bool)
  | readSpent (s : ℕ) (answers : Bool)
  /-- both answers are there -/
  | check (s : ℕ)
  | halt (s : ℕ) (q : Query)
  | haltReason (s : ℕ) (q : Query)
  | record (s : ℕ) (q : Query)
  /-- `submitTransfer`, which may end before it has sent anything -/
  | submit (s : ℕ) (sent : Bool)
  | unlock (s : ℕ) (q : Query)
  /-- an idle session is closed -/
  | disconnect (s : ℕ)
  | resume
  | tick (microseconds : ℕ)
deriving DecidableEq

namespace World

def start (clock : ℕ) : World := ⟨clock, .empty, none, fun _ => .idle, []⟩

def set (w : World) (s : ℕ) (r : Run) : World := { w with runs := Function.update w.runs s r }

end World

/-- The row that a sweep logs. -/
def sweepRow (amount : Stroops) (now : ℕ) : SpendRow :=
  ⟨amount.usdc, "sweep", some TREASURY_CONTRACT_ID, now⟩

variable (print : Printer) (cal : Budget.Calendar ℕ) (cap : ℚ)

/-- Where the spend guard's verdict leads. -/
def Run.checked (amount : Stroops) (halted : Option ℕ) (spentToday : ℚ) : Run :=
  match checkSpend print cap halted spentToday amount.usdc "sweep" (some TREASURY_CONTRACT_ID) with
  | .ok () => .recording amount
  | .error (.halted _) => .unlocking
  | .error (.capExceeded haltReason _) => .halting haltReason

def step (w : World) : Action → Option World
  | .sweep s minUsdcRaw =>
    match w.runs s with
    | .idle => some <| match minUsdcRaw with
      | none => w
      | some minUsdc => w.set s (.locking minUsdc)
    | _ => none
  | .tryLock s q =>
    match w.runs s with
    -- when the answer is lost, the session may hold the lock all the same
    | .locking minUsdc => some <| match w.lock.acquire s, q with
      | none, _ | some _, .failed false => w.set s .idle
      | some lock, .failed true => { w with lock := some lock }.set s .idle
      | some lock, .answered => { w with lock := some lock }.set s (.locked minUsdc)
    | _ => none
  | .balance s stroops =>
    match w.runs s with
    | .locked minUsdc => some <| match sweepStroops stroops minUsdc with
      | none => w.set s .unlocking
      | some amount => w.set s (.checking amount none none)
    | _ => none
  | .readHalted s answers =>
    match w.runs s with
    | .checking amount none spentToday =>
      some (w.set s (if answers then .checking amount (some w.db.haltedAt) spentToday else .unlocking))
    | _ => none
  | .readSpent s answers =>
    match w.runs s with
    | .checking amount halted none =>
      some (w.set s (if answers then .checking amount halted (some (w.db.spentToday cal w.clock))
        else .unlocking))
    | _ => none
  | .check s =>
    match w.runs s with
    | .checking amount (some halted) (some spentToday) =>
      some (w.set s (.checked print cap amount halted spentToday))
    | _ => none
  | .halt s q =>
    match w.runs s with
    | .halting reason =>
      some ({ w with db := if q.effective then w.db.halt w.clock else w.db }.set s <| match q with
        | .answered => .haltingReason reason
        | .failed _ => .unlocking)
    | _ => none
  | .haltReason s q =>
    match w.runs s with
    | .haltingReason reason =>
      some ({ w with db := if q.effective then w.db.setHaltReason reason else w.db }.set s .unlocking)
    | _ => none
  | .record s q =>
    match w.runs s with
    -- the row may be there although the insert has failed, and nothing is sent then
    | .recording amount => some <| match q with
      | .answered => { w with db := w.db.record (sweepRow amount w.clock) }.set s (.submitting amount)
      | .failed true => { w with db := w.db.record (sweepRow amount w.clock) }.set s .unlocking
      | .failed false => w.set s .unlocking
    | _ => none
  | .submit s sent =>
    match w.runs s with
    | .submitting amount =>
      some ({ w with transfers := if sent then w.transfers ++ [amount] else w.transfers }.set s
        .unlocking)
    | _ => none
  | .unlock s q =>
    match w.runs s with
    -- the session goes back to the pool with what it still holds
    | .unlocking =>
      some ({ w with lock := if q.effective then w.lock.release s else w.lock }.set s .idle)
    | _ => none
  | .disconnect s =>
    match w.runs s with
    | .idle => some { w with lock := w.lock.drop s }
    | _ => none
  | .resume => some { w with db := w.db.resume }
  | .tick microseconds => some { w with clock := w.clock + microseconds }

/-- The run acts under the lock. -/
def Run.Inside : Run → Prop
  | .idle | .locking _ => False
  | _ => True

/-- The steps of the system, by what they do to it. -/
inductive Move (w : World) : World → Prop
  | unset : Move w w
  | began (s : ℕ) (minUsdc : Option ℚ) (hrun : w.runs s = .idle) :
      Move w (w.set s (.locking minUsdc))
  | refused (s : ℕ) (minUsdc : Option ℚ) (hrun : w.runs s = .locking minUsdc) :
      Move w (w.set s .idle)
  | acquired (s : ℕ) (minUsdc : Option ℚ) (r : Run) (lock : ℕ × ℕ)
      (hrun : w.runs s = .locking minUsdc) (hlock : w.lock.acquire s = some lock)
      (hr : r = .idle ∨ r = .locked minUsdc) : Move w ({ w with lock := some lock }.set s r)
  | measured (s : ℕ) (amount : Stroops) (hrun : (w.runs s).Inside) :
      Move w (w.set s (.checking amount none none))
  | readHalted (s : ℕ) (amount : Stroops) (spentToday : Option ℚ)
      (hrun : w.runs s = .checking amount none spentToday) :
      Move w (w.set s (.checking amount (some w.db.haltedAt) spentToday))
  | readSpent (s : ℕ) (amount : Stroops) (halted : Option (Option ℕ))
      (hrun : w.runs s = .checking amount halted none) :
      Move w (w.set s (.checking amount halted (some (w.db.spentToday cal w.clock))))
  | allowed (s : ℕ) (amount : Stroops) (spentToday : ℚ)
      (hrun : w.runs s = .checking amount (some none) (some spentToday))
      (hfits : spentToday + amount.usdc ≤ cap) : Move w (w.set s (.recording amount))
  | exceeded (s : ℕ) (reason : String) (hrun : (w.runs s).Inside) :
      Move w (w.set s (.halting reason))
  | gaveUp (s : ℕ) (hrun : (w.runs s).Inside) : Move w (w.set s .unlocking)
  | halted (s : ℕ) (reason : String) (r : Run) (db : SpendState) (hrun : (w.runs s).Inside)
      (hlog : db.log = w.db.log) (hr : r = .haltingReason reason ∨ r = .unlocking) :
      Move w ({ w with db := db }.set s r)
  | recorded (s : ℕ) (amount : Stroops) (r : Run) (hrun : w.runs s = .recording amount)
      (hr : r = .submitting amount ∨ r = .unlocking) :
      Move w ({ w with db := w.db.record (sweepRow amount w.clock) }.set s r)
  | submitted (s : ℕ) (amount : Stroops) (hrun : w.runs s = .submitting amount) :
      Move w ({ w with transfers := w.transfers ++ [amount] }.set s .unlocking)
  | released (s : ℕ) (lock : Lock) (hrun : w.runs s = .unlocking) :
      Move w ({ w with lock := lock }.set s .idle)
  | disconnected (s : ℕ) (hrun : w.runs s = .idle) : Move w { w with lock := w.lock.drop s }
  | resumed : Move w { w with db := w.db.resume }
  | ticked (microseconds : ℕ) : Move w { w with clock := w.clock + microseconds }

variable {print cal cap} {w w' : World} {a : Action} {s : ℕ} {r : Run}

/-- Every step is one of the cases. -/
theorem move_of_step (h : step print cal cap w a = some w') : Move cal cap w w' := by
  cases a with
  | sweep s minUsdcRaw =>
    simp only [step] at h
    split at h
    · cases h
      cases minUsdcRaw with
      | none => exact .unset
      | some minUsdc => exact .began s minUsdc ‹_›
    · cases h
  | tryLock s q =>
    simp only [step] at h
    split at h
    · rename_i minUsdc hrun
      cases h
      split
      · exact .refused s minUsdc hrun
      · exact .refused s minUsdc hrun
      · exact .acquired s minUsdc _ _ hrun ‹_› (.inl rfl)
      · exact .acquired s minUsdc _ _ hrun ‹_› (.inr rfl)
    · cases h
  | balance s stroops =>
    simp only [step] at h
    split at h
    · rename_i minUsdc hrun
      cases h
      have hinside : (w.runs s).Inside := by rw [hrun]; trivial
      split
      · exact .gaveUp s hinside
      · exact .measured s _ hinside
    · cases h
  | readHalted s answers =>
    simp only [step] at h
    split at h
    · rename_i amount spentToday hrun
      cases h
      cases answers with
      | false => exact .gaveUp s (by rw [hrun]; trivial)
      | true => exact .readHalted s amount spentToday hrun
    · cases h
  | readSpent s answers =>
    simp only [step] at h
    split at h
    · rename_i amount halted hrun
      cases h
      cases answers with
      | false => exact .gaveUp s (by rw [hrun]; trivial)
      | true => exact .readSpent s amount halted hrun
    · cases h
  | check s =>
    simp only [step] at h
    split at h
    · rename_i amount halted spentToday hrun
      cases h
      have hinside : (w.runs s).Inside := by rw [hrun]; trivial
      rw [Run.checked]
      split
      · rename_i hok
        obtain ⟨rfl, hfits⟩ := checkSpend_eq_ok_iff.mp hok
        exact .allowed s amount spentToday hrun hfits
      · exact .gaveUp s hinside
      · exact .exceeded s _ hinside
    · cases h
  | halt s q =>
    simp only [step] at h
    split at h
    · rename_i reason hrun
      cases h
      refine .halted s reason _ _ (by rw [hrun]; trivial) (by split <;> rfl) ?_
      cases q with
      | answered => exact .inl rfl
      | failed => exact .inr rfl
    · cases h
  | haltReason s q =>
    simp only [step] at h
    split at h
    · rename_i reason hrun
      cases h
      exact .halted s reason _ _ (by rw [hrun]; trivial) (by split <;> rfl) (.inr rfl)
    · cases h
  | record s q =>
    simp only [step] at h
    split at h
    · rename_i amount hrun
      cases h
      split
      · exact .recorded s amount _ hrun (.inl rfl)
      · exact .recorded s amount _ hrun (.inr rfl)
      · exact .gaveUp s (by rw [hrun]; trivial)
    · cases h
  | submit s sent =>
    simp only [step] at h
    split at h
    · rename_i amount hrun
      cases h
      cases sent with
      | false => exact .gaveUp s (by rw [hrun]; trivial)
      | true => exact .submitted s amount hrun
    · cases h
  | unlock s q =>
    simp only [step] at h
    split at h
    · rename_i hrun
      cases h
      exact .released s _ hrun
    · cases h
  | disconnect s =>
    simp only [step] at h
    split at h
    · rename_i hrun
      cases h
      exact .disconnected s hrun
    · cases h
  | resume =>
    cases h
    exact .resumed
  | tick microseconds =>
    cases h
    exact .ticked microseconds

/-! ## The holder of the lock -/

variable (cal cap)

/-- What the run at a stage knows of the tables, which nobody else changes meanwhile. -/
def World.Knows (w : World) : Run → Prop
  | .checking _ halted spentToday =>
    (halted = some none → w.db.haltedAt = none) ∧
      ∀ v ∈ spentToday, ∃ t ≤ w.clock, v = w.db.spentToday cal t
  | .recording amount =>
    w.db.haltedAt = none ∧ ∃ t ≤ w.clock, w.db.spentToday cal t + amount.usdc ≤ cap
  | .submitting amount =>
    ∃ log row, w.db.log = log ++ [row] ∧ row.amountUsdc = amount.usdc ∧
      (w.transfers.map Stroops.usdc).Sublist (log.map SpendRow.amountUsdc)
  | _ => True

structure World.Sound (w : World) : Prop where
  exclusive : ∀ s, (w.runs s).Inside → ∃ more, w.lock = some (s, more)
  knows : ∀ s, w.Knows cal cap (w.runs s)
  nonneg : ∀ row ∈ w.db.log, 0 ≤ row.amountUsdc
  withinCap : w.db.WithinCap cal cap
  /-- every transfer has a row of its own -/
  logged : (w.transfers.map Stroops.usdc).Sublist (w.db.log.map SpendRow.amountUsdc)

variable {cal cap}

theorem Stroops.usdc_nonneg (amount : Stroops) : 0 ≤ amount.usdc := by
  have hpos : (0 : ℚ) ≤ amount.val := by exact_mod_cast amount.pos.le
  have hunit : (0 : ℚ) ≤ STROOPS_PER_UNIT := by norm_num [STROOPS_PER_UNIT]
  exact div_nonneg hpos hunit

/-- What holds of all sessions once one of them has gone on. -/
theorem World.forall_runs_set (P : ℕ → Run → Prop) :
    (∀ s', P s' ((w.set s r).runs s')) ↔ P s r ∧ ∀ s', s' ≠ s → P s' (w.runs s') :=
  Function.forall_update_iff w.runs P

theorem World.knows_of_not_inside (w : World) (h : ¬r.Inside) : w.Knows cal cap r := by
  cases r with
  | idle | locking => trivial
  | locked | checking | halting | haltingReason | recording | submitting | unlocking =>
    exact absurd trivial h

/-- Time passing and an admin's resume take nothing away from what a run knows. -/
theorem World.Knows.frame (h : w.Knows cal cap r) (hclock : w.clock ≤ w'.clock)
    (hlog : w'.db.log = w.db.log) (htransfers : w'.transfers = w.transfers)
    (hhalted : w.db.haltedAt = none → w'.db.haltedAt = none) : w'.Knows cal cap r := by
  have hspent : ∀ t, w'.db.spentToday cal t = w.db.spentToday cal t := by
    intro t
    rw [SpendState.spentToday, hlog]
    rfl
  cases r with
  | checking amount halted spentToday =>
    refine ⟨fun hnone => hhalted (h.1 hnone), fun v hv => ?_⟩
    obtain ⟨t, ht, hv⟩ := h.2 v hv
    exact ⟨t, ht.trans hclock, hv.trans (hspent t).symm⟩
  | recording amount =>
    obtain ⟨hnone, t, ht, hfits⟩ := h
    exact ⟨hhalted hnone, t, ht.trans hclock, by rwa [hspent]⟩
  | submitting amount =>
    obtain ⟨log, row, hsplit, hrow, hsub⟩ := h
    exact ⟨log, row, hlog.trans hsplit, hrow, by rwa [htransfers]⟩
  | idle | locking | locked | halting | haltingReason | unlocking => trivial

namespace World.Sound

theorem start (hcap : 0 ≤ cap) (clock : ℕ) : (World.start clock).Sound cal cap where
  exclusive _ hs := hs.elim
  knows _ := trivial
  nonneg _ hrow := absurd hrow List.not_mem_nil
  withinCap := Budget.withinCap_nil hcap
  logged := List.Sublist.slnil

/-- At most one run is inside. -/
theorem unique (hw : w.Sound cal cap) {s s' : ℕ} (hs : (w.runs s).Inside)
    (hs' : (w.runs s').Inside) : s' = s := by
  obtain ⟨more, hlock⟩ := hw.exclusive s hs
  obtain ⟨more', hlock'⟩ := hw.exclusive s' hs'
  rw [hlock] at hlock'
  cases hlock'
  rfl

theorem knows_of_run (hw : w.Sound cal cap) (hrun : w.runs s = r) : w.Knows cal cap r := by
  rw [← hrun]
  exact hw.knows s

/-- A run goes on without a change to the tables. -/
theorem set (hw : w.Sound cal cap) (hinside : r.Inside → (w.runs s).Inside)
    (hknows : w.Knows cal cap r) : (w.set s r).Sound cal cap where
  exclusive := by
    apply (World.forall_runs_set fun s' r => r.Inside → ∃ more, w.lock = some (s', more)).mpr
    exact ⟨fun hr => hw.exclusive s (hinside hr), fun s' _ => hw.exclusive s'⟩
  knows := by
    apply (World.forall_runs_set fun _ r => w.Knows cal cap r).mpr
    exact ⟨hknows, fun s' _ => hw.knows s'⟩
  nonneg := hw.nonneg
  withinCap := hw.withinCap
  logged := hw.logged

/-- The run that is inside changes the tables. -/
theorem act (hw : w.Sound cal cap) (hs : (w.runs s).Inside) {w₁ : World} (hruns : w₁.runs = w.runs)
    (hlock : w₁.lock = w.lock) (hknows : w₁.Knows cal cap r)
    (hnonneg : ∀ row ∈ w₁.db.log, 0 ≤ row.amountUsdc) (hwithin : w₁.db.WithinCap cal cap)
    (hlogged : (w₁.transfers.map Stroops.usdc).Sublist (w₁.db.log.map SpendRow.amountUsdc)) :
    (w₁.set s r).Sound cal cap where
  exclusive := by
    apply (World.forall_runs_set fun s' r => r.Inside → ∃ more, w₁.lock = some (s', more)).mpr
    rw [hlock, hruns]
    exact ⟨fun _ => hw.exclusive s hs, fun s' _ => hw.exclusive s'⟩
  knows := by
    apply (World.forall_runs_set fun _ r => w₁.Knows cal cap r).mpr
    rw [hruns]
    refine ⟨hknows, fun s' hne => ?_⟩
    -- the other runs are outside, and know nothing that could have changed
    exact World.knows_of_not_inside _ fun hs' => hne (hw.unique hs hs')
  nonneg := hnonneg
  withinCap := hwithin
  logged := hlogged

/-- The lock changes while only the session at hand, if any, is inside. -/
theorem relock (hw : w.Sound cal cap) (hothers : ∀ s', s' ≠ s → ¬(w.runs s').Inside) (lock : Lock)
    (hinside : r.Inside → ∃ more, lock = some (s, more)) (hknows : w.Knows cal cap r) :
    ({ w with lock := lock }.set s r).Sound cal cap where
  exclusive := by
    apply (World.forall_runs_set fun s' r => r.Inside → ∃ more, lock = some (s', more)).mpr
    exact ⟨hinside, fun s' hne hs' => absurd hs' (hothers s' hne)⟩
  knows := by
    apply (World.forall_runs_set fun _ r => World.Knows cal cap { w with lock := lock } r).mpr
    exact ⟨hknows.frame le_rfl rfl rfl id, fun s' hne => World.knows_of_not_inside _ (hothers s' hne)⟩
  nonneg := hw.nonneg
  withinCap := hw.withinCap
  logged := hw.logged

/-- Nobody is inside while a session takes the lock that was not inside. -/
theorem not_inside_of_acquire (hw : w.Sound cal cap) {lock : ℕ × ℕ} (hs : ¬(w.runs s).Inside)
    (hlock : w.lock.acquire s = some lock) : lock.1 = s ∧ ∀ s', ¬(w.runs s').Inside := by
  unfold Lock.acquire at hlock
  split at hlock
  · rename_i hfree
    cases hlock
    refine ⟨rfl, fun s' hs' => ?_⟩
    obtain ⟨more, hheld⟩ := hw.exclusive s' hs'
    cases hfree.symm.trans hheld
  · rename_i holder more hheld
    split at hlock
    · rename_i hsame
      cases hlock
      refine ⟨rfl, fun s' hs' => ?_⟩
      obtain ⟨more', hheld'⟩ := hw.exclusive s' hs'
      cases hheld.symm.trans hheld'
      exact hs (hsame ▸ hs')
    · cases hlock

theorem step (hw : w.Sound cal cap) (h : Facilitator.step print cal cap w a = some w') :
    w'.Sound cal cap := by
  cases move_of_step h with
  | unset => exact hw
  | began s minUsdc hrun => exact hw.set (fun hr => hr.elim) trivial
  | refused s minUsdc hrun => exact hw.set (fun hr => hr.elim) trivial
  | acquired s minUsdc r lock hrun hlock hr =>
    obtain ⟨hholder, hnone⟩ := hw.not_inside_of_acquire (by rw [hrun]; exact id) hlock
    refine hw.relock (fun s' _ => hnone s') (some lock) (fun _ => ⟨lock.2, ?_⟩) ?_
    · rw [← hholder]
    · rcases hr with rfl | rfl
      · trivial
      · trivial
  | measured s amount hrun =>
    refine hw.set (fun _ => hrun) ⟨fun hhalted => ?_, fun v hv => ?_⟩
    · cases hhalted
    · cases hv
  | readHalted s amount spentToday hrun =>
    exact hw.set (fun _ => by rw [hrun]; trivial) ⟨Option.some.inj, (hw.knows_of_run hrun).2⟩
  | readSpent s amount halted hrun =>
    refine hw.set (fun _ => by rw [hrun]; trivial) ⟨(hw.knows_of_run hrun).1, fun v hv => ?_⟩
    exact ⟨w.clock, le_rfl, (Option.some.inj hv).symm⟩
  | allowed s amount spentToday hrun hfits =>
    -- both answers still hold: no other run has been inside since
    obtain ⟨hhalted, hspent⟩ := hw.knows_of_run hrun
    obtain ⟨t, ht, hspent⟩ := hspent spentToday rfl
    exact hw.set (fun _ => by rw [hrun]; trivial) ⟨hhalted rfl, t, ht, hspent ▸ hfits⟩
  | exceeded s reason hrun => exact hw.set (fun _ => hrun) trivial
  | gaveUp s hrun => exact hw.set (fun _ => hrun) trivial
  | halted s reason r db hrun hlog hr =>
    have hknows : World.Knows cal cap { w with db := db } r := by
      rcases hr with rfl | rfl
      · trivial
      · trivial
    refine hw.act hrun rfl rfl hknows ?_ ?_ ?_
    · rw [hlog]
      exact hw.nonneg
    · rw [SpendState.WithinCap, hlog]
      exact hw.withinCap
    · rw [hlog]
      exact hw.logged
  | recorded s amount r hrun hr =>
    obtain ⟨-, t, ht, hfits⟩ := hw.knows_of_run hrun
    refine hw.act (by rw [hrun]; trivial) rfl rfl ?_ ?_ ?_ ?_
    · rcases hr with rfl | rfl
      · exact ⟨w.db.log, sweepRow amount w.clock, rfl, rfl, hw.logged⟩
      · trivial
    · intro row hrow
      rcases List.mem_append.mp hrow with hold | hnew
      · exact hw.nonneg row hold
      · rw [List.mem_singleton.mp hnew]
        exact amount.usdc_nonneg
    · -- the total was read at `t`, perhaps a day before the row is logged
      exact SpendState.withinCap_record hw.withinCap hw.nonneg ht hfits
    · refine hw.logged.trans ?_
      exact (List.sublist_append_left _ _).map _
  | submitted s amount hrun =>
    obtain ⟨log, row, hsplit, hrow, hsub⟩ := hw.knows_of_run hrun
    refine hw.act (by rw [hrun]; trivial) rfl rfl trivial hw.nonneg hw.withinCap ?_
    show ((w.transfers ++ [amount]).map Stroops.usdc).Sublist (w.db.log.map SpendRow.amountUsdc)
    rw [hsplit, List.map_append, List.map_append, List.map_singleton, List.map_singleton, hrow]
    exact hsub.append (List.Sublist.refl _)
  | released s lock hrun =>
    have hinside : (w.runs s).Inside := by rw [hrun]; trivial
    refine hw.relock (fun s' hne hs' => ?_) lock (fun hr => hr.elim) trivial
    exact hne (hw.unique hinside hs')
  | disconnected s hrun =>
    refine ⟨fun s' hs' => ?_, hw.knows, hw.nonneg, hw.withinCap, hw.logged⟩
    obtain ⟨more, hlock⟩ := hw.exclusive s' hs'
    have hne : s' ≠ s := by
      rintro rfl
      rw [hrun] at hs'
      exact hs'
    exact ⟨more, by simp [Lock.drop, hlock, hne]⟩
  | resumed =>
    exact ⟨hw.exclusive, fun s => (hw.knows s).frame le_rfl rfl rfl fun _ => rfl, hw.nonneg,
      hw.withinCap, hw.logged⟩
  | ticked microseconds =>
    exact ⟨hw.exclusive, fun s => (hw.knows s).frame (Nat.le_add_right _ _) rfl rfl id, hw.nonneg,
      hw.withinCap, hw.logged⟩

end World.Sound

/-! ## The cap -/

variable (cal cap)

/-- The transfers submitted so far each have a row of their own, which was there before the
step; no day's rows exceed the cap; and while signing is halted no row is added. -/
def Capped : World × Action × World → Prop
  | (w, _, w') =>
    (w'.transfers.map Stroops.usdc).Sublist (w.db.log.map SpendRow.amountUsdc) ∧
      (∀ day, Budget.spentOn cal SpendRow.createdAt SpendRow.amountUsdc day w'.db.log ≤ cap) ∧
      (w.db.haltedAt.isSome → w'.db.log = w.db.log)

variable {cal cap}

/-- A step submits a transfer or logs a row, not both. -/
theorem transfers_or_log_eq (h : Facilitator.step print cal cap w a = some w') :
    w'.transfers = w.transfers ∨ w'.db.log = w.db.log := by
  cases move_of_step h with
  | recorded => exact .inl rfl
  | halted s reason r db hrun hlog hr => exact .inr hlog
  | _ => exact .inr rfl

/-- Only a run that has found signing not halted logs a row. -/
theorem log_eq_of_halted (hw : w.Sound cal cap) (h : Facilitator.step print cal cap w a = some w')
    (hhalted : w.db.haltedAt.isSome) : w'.db.log = w.db.log := by
  cases move_of_step h with
  | recorded s amount r hrun hr =>
    rw [(hw.knows_of_run hrun).1] at hhalted
    cases hhalted
  | halted s reason r db hrun hlog hr => exact hlog
  | _ => rfl

theorem capped_of_step (hw : w.Sound cal cap) (h : Facilitator.step print cal cap w a = some w') :
    Capped cal cap (w, a, w') := by
  have hw' := hw.step h
  refine ⟨?_, hw'.withinCap, log_eq_of_halted hw h⟩
  rcases transfers_or_log_eq h with htransfers | hlog
  · rw [htransfers]
    exact hw.logged
  · rw [← hlog]
    exact hw'.logged

/-- The spend cap holds at every step, whatever runs, fails and is resumed in between. -/
theorem spend_capped (hcap : 0 ≤ cap) (clock : ℕ) (ls : List Action) :
    ∀ e ∈ trace (Facilitator.step print cal cap) (.start clock) ls, Capped cal cap e := by
  rintro ⟨w, a, w'⟩ he
  have hany : ∀ a ∈ ls, (fun _ => True) a := fun _ _ => trivial
  obtain ⟨hreach, -, hstep⟩ := reaches_of_mem_trace hany he
  have hw : w.Sound cal cap := hreach.invariant (I := World.Sound cal cap)
    (World.Sound.start hcap clock) fun _ _ _ _ hw hs => hw.step hs
  exact capped_of_step hw hstep

/-- Days in UTC. -/
def utc : Budget.Calendar ℕ where
  startOfDay t := t / 86400000000 * 86400000000
  startOfDay_le t := Nat.div_mul_le_self t 86400000000
  monotone _ _ h := Nat.mul_le_mul_right _ (Nat.div_le_div_right h)

def plainPrinter : Printer := ⟨toString, toString⟩

/-- Thirty dollars are there, and ten are to stay. The day ends before the row is logged. -/
def exampleSweep : List Action :=
  [.sweep 0 (some (some 10)), .tryLock 0 .answered, .balance 0 (some 300000000),
    .readSpent 0 true, .readHalted 0 true, .check 0, .tick 86400000000, .record 0 .answered,
    .submit 0 true, .unlock 0 .answered]

/-- Twenty dollars are swept, within a cap of a hundred. -/
theorem exampleSweep_capped :
    (∃ w, exec (step plainPrinter utc 100) (.start 0) exampleSweep = some w ∧
        w.transfers.map Stroops.val = [200000000]) ∧
      ∀ e ∈ trace (step plainPrinter utc 100) (.start 0) exampleSweep, Capped utc 100 e := by
  have hcap : (0 : ℚ) ≤ 100 := by norm_num
  exact ⟨exists_exec_of_any (by decide +kernel), spend_capped hcap 0 exampleSweep⟩

end KonfirmBackend.Facilitator
