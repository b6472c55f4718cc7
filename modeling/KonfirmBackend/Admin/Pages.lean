import KonfirmBackend.Admin.Books
import KonfirmBackend.Lib.Paging

/-!
# Going through the payments

The page of the payments lists them newest first and takes a status, a limit and an offset. An
admin goes from page to page while payments come in, which moves all the others on.

## Main definitions

- `Books.Lists` — what `AdminPaymentsService.list` selects, in its order
- `Walk` — the pages an admin has seen
- `Books.Stays` — no payment is taken off the list of a status

## Main results

- `paged_of_step` — a payment has been on a page, or is still to come
- `walk_misses_none` — who has come to the end has seen every payment
-/

namespace KonfirmBackend.Admin

open Transition KonfirmBackend.Reconciler

/-- The `WHERE` clause, without which all payments are selected. -/
def Books.selected (b : Books) (status : Option PaymentStatus) : List (Payment × ℕ) :=
  b.rows.filter fun r => status.all fun s => decide (r.1.status = s)

/-- All rows of the query of `list`, in an order that it may give them: `created_at` decides,
and nothing does among equals. -/
def Books.Lists (b : Books) (status : Option PaymentStatus) (rows : List (Payment × ℕ)) : Prop :=
  rows.Perm (b.selected status) ∧ rows.Pairwise fun r r' => r'.2 ≤ r.2

instance (b : Books) (status : Option PaymentStatus) (rows : List (Payment × ℕ)) :
    Decidable (b.Lists status rows) :=
  inferInstanceAs (Decidable (_ ∧ _))

/-- An admin goes through the pages. -/
structure Walk where
  books : Books
  pages : List (List (Payment × ℕ))
deriving DecidableEq

inductive WalkAction
  | act (a : BooksAction)
  /-- the call for the next page, at which the rows have this order -/
  | fetch (rows : List (Payment × ℕ))

def Walk.step (W : Watcher) (status : Option PaymentStatus) (limit : ℕ) (s : Walk) :
    WalkAction → Option Walk
  | .act a => (s.books.step W a).map fun b => { s with books := b }
  | .fetch rows =>
    if s.books.Lists status rows then
      some { s with pages := s.pages ++ [Paging.page rows limit (s.pages.length * limit)] }
    else none

/-- The payments with the status, known by their times, have it after the step, too. -/
def Books.Stays (b b' : Books) (status : PaymentStatus) : Prop :=
  ∀ r ∈ b.selected (some status), ∃ r' ∈ b'.selected (some status), r'.2 = r.2

instance (b b' : Books) (status : PaymentStatus) : Decidable (b.Stays b' status) :=
  inferInstanceAs (Decidable (∀ r ∈ _, ∃ r' ∈ _, _))

/-- No two payments have been created at one time. -/
def Books.NoTies (b : Books) : Prop := (b.rows.map Prod.snd).Nodup

instance (b : Books) : Decidable b.NoTies := inferInstanceAs (Decidable (List.Nodup _))

/-- How many payments are listed before one of the time `t`. -/
def Books.before (b : Books) (status : Option PaymentStatus) (t : ℕ) : ℕ :=
  (b.selected status).countP fun r => decide (t < r.2)

/-- The payment with the id `i` has been on a page; or it is listed behind all of them, and they
are full. -/
inductive Paged (status : Option PaymentStatus) (limit i t : ℕ) (s : Walk) : Prop
  | seen (page : List (Payment × ℕ)) (hpage : page ∈ s.pages) (r : Payment × ℕ) (hr : r ∈ page)
      (hid : r.1.id = i)
  | ahead (r : Payment × ℕ) (hr : r ∈ s.books.selected status) (hid : r.1.id = i) (ht : r.2 = t)
      (hle : s.pages.length * limit ≤ s.books.before status t)
      (hfull : ∀ page ∈ s.pages, page.length = limit)

section Steps

variable {W : Watcher} {status : Option PaymentStatus} {limit i t : ℕ} {b b' : Books}
  {s s' : Walk}

theorem Books.NoTies.eq_of_time (h : b.NoTies) {r r' : Payment × ℕ} (hr : r ∈ b.rows)
    (hr' : r' ∈ b.rows) (ht : r.2 = r'.2) : r = r' :=
  List.inj_on_of_nodup_map h hr hr' ht

/-- What is listed stays listed, as the same payment, and behind no fewer others. -/
structure Books.KeepsListed (b b' : Books) (status : Option PaymentStatus) : Prop where
  listed : ∀ r ∈ b.selected status, ∃ r' ∈ b'.selected status, r'.1.id = r.1.id ∧ r'.2 = r.2
  before_le : ∀ t, b.before status t ≤ b'.before status t

theorem Books.keepsListed_of_append {new : List (Payment × ℕ)} (hrows : b'.rows = b.rows ++ new) :
    b.KeepsListed b' status := by
  have hselected : b'.selected status = b.selected status ++
      new.filter fun r => status.all fun s => decide (r.1.status = s) := by
    rw [selected, hrows, List.filter_append]
    rfl
  constructor
  · intro r hr
    refine ⟨r, ?_, rfl, rfl⟩
    rw [hselected]
    exact List.mem_append_left _ hr
  · intro t
    rw [before, before, hselected, List.countP_append]
    exact Nat.le_add_right _ _

/-- Statuses have changed, but no row has left the list. -/
theorem Books.keepsListed_of_map {f : Payment → Payment} (hties : b.NoTies)
    (hf : ∀ p, f p = { p with status := (f p).status })
    (hstay : ∀ st ∈ status, b.Stays b' st)
    (hrows : b'.rows = b.rows.map fun r => (f r.1, r.2)) : b.KeepsListed b' status := by
  have hlisted : ∀ r ∈ b.selected status, (f r.1, r.2) ∈ b'.selected status := by
    intro r hr
    have hrow := List.mem_of_mem_filter hr
    cases status with
    | none =>
      refine List.mem_filter.mpr ⟨?_, rfl⟩
      rw [hrows]
      exact List.mem_map_of_mem hrow
    | some st =>
      obtain ⟨r', hr', ht⟩ := hstay st rfl r hr
      have hmem := List.mem_of_mem_filter hr'
      rw [hrows] at hmem
      obtain ⟨q, hq, rfl⟩ := List.mem_map.mp hmem
      obtain rfl := hties.eq_of_time hq hrow ht
      exact hr'
  constructor
  · intro r hr
    have hid : (f r.1).id = r.1.id := by rw [hf r.1]
    exact ⟨_, hlisted r hr, hid, rfl⟩
  · intro t
    simp only [before, selected, List.countP_filter]
    rw [hrows, List.countP_map]
    refine List.countP_mono_left fun r hr hbefore => ?_
    obtain ⟨hlt, hstatus⟩ := (Bool.and_eq_true _ _).mp hbefore
    have hmem := hlisted r (List.mem_filter.mpr ⟨hr, hstatus⟩)
    exact (Bool.and_eq_true _ _).mpr ⟨hlt, (List.mem_filter.mp hmem).2⟩

theorem keepsListed_of_step {a : BooksAction} (hdated : b.Dated) (hties : b.NoTies)
    (hstay : ∀ st ∈ status, b.Stays b' st)
    (hs : b.step W a = some b') : b.KeepsListed b' status := by
  cases a with
  | tick elapsed =>
    obtain rfl := Option.some.inj hs
    exact Books.keepsListed_of_append (List.append_nil _).symm
  | act act =>
    obtain ⟨-, -, ⟨row, hrows⟩ | ⟨f, hf, hrows⟩⟩ := rows_of_act hdated hs
    · exact Books.keepsListed_of_append hrows
    · exact Books.keepsListed_of_map hties hf hstay hrows

/-- Before a row come those with later times. -/
theorem Books.Lists.getElem?_before {rows : List (Payment × ℕ)} (h : b.Lists status rows)
    (hties : b.NoTies) {r : Payment × ℕ} (hr : r ∈ b.selected status) :
    rows[b.before status r.2]? = some r := by
  obtain ⟨hperm, hsorted⟩ := h
  have hdistinct : rows.Pairwise fun r r' => r.2 ≠ r'.2 := by
    have hnodup : (rows.map Prod.snd).Nodup :=
      (hperm.map Prod.snd).nodup_iff.mpr (hties.sublist (List.filter_sublist.map Prod.snd))
    exact List.pairwise_map.mp hnodup
  have hstrict : rows.Pairwise fun r r' => r'.2 < r.2 :=
    hsorted.imp₂ (fun r r' hle hne => lt_of_le_of_ne hle hne.symm) hdistinct
  rw [Books.before, ← hperm.countP_eq]
  exact Paging.getElem?_countP hstrict (hperm.mem_iff.mpr hr)

theorem paged_of_step {a : WalkAction} (hdated : s.books.Dated) (hties : s.books.NoTies)
    (hstay : ∀ st ∈ status, s.books.Stays s'.books st) (hs : s.step W status limit a = some s')
    (h : Paged status limit i t s) : Paged status limit i t s' := by
  cases a with
  | act a =>
    obtain ⟨b, hb, rfl⟩ := Option.map_eq_some_iff.mp hs
    cases h with
    | seen page hpage r hr hid => exact .seen page hpage r hr hid
    | ahead r hr hid ht hle hfull =>
      have hkeeps := keepsListed_of_step hdated hties hstay hb
      obtain ⟨r', hr', hid', ht'⟩ := hkeeps.listed r hr
      exact .ahead r' hr' (hid'.trans hid) (ht'.trans ht) (hle.trans (hkeeps.before_le t)) hfull
  | fetch rows =>
    by_cases hlists : s.books.Lists status rows
    · rw [Walk.step, if_pos hlists] at hs
      obtain rfl := Option.some.inj hs
      cases h with
      | seen page hpage r hr hid => exact .seen page (List.mem_append_left _ hpage) r hr hid
      | ahead r hr hid ht hle hfull =>
        have hplace := hlists.getElem?_before hties hr
        rw [ht] at hplace
        -- the row is on this page, or the page is full and the row on a later one
        obtain hon | ⟨hbehind, hlength⟩ := Paging.mem_page_or limit hplace hle
        · exact .seen _ (List.mem_append_right _ (List.mem_singleton_self _)) r hon hid
        · refine .ahead r hr hid ht ?_ ?_
          · rw [List.length_append, List.length_singleton, Nat.add_mul, Nat.one_mul]
            exact hbehind
          · intro page hpage
            obtain hpage | hpage := List.mem_append.mp hpage
            · exact hfull page hpage
            · rw [List.mem_singleton.mp hpage]
              exact hlength
    · rw [Walk.step, if_neg hlists] at hs
      cases hs

theorem dated_of_step {a : WalkAction} (h : s.books.Dated)
    (hs : s.step W status limit a = some s') : s'.books.Dated := by
  cases a with
  | act a =>
    obtain ⟨b, hb, rfl⟩ := Option.map_eq_some_iff.mp hs
    exact (continues_of_step h hb).1
  | fetch rows =>
    by_cases hlists : s.books.Lists status rows
    · rw [Walk.step, if_pos hlists] at hs
      obtain rfl := Option.some.inj hs
      exact h
    · rw [Walk.step, if_neg hlists] at hs
      cases hs

end Steps

section Run

variable {W : Watcher} {status : Option PaymentStatus} {limit : ℕ} {s s' : Walk}
  {ls : List WalkAction}

/-- **Nobody is missed**: whatever is inserted and decided between the calls, an admin who goes
on until a page is not full has seen every payment that was listed at the start, if no two have
one time and, on the list of a status, none loses that status in the meantime. -/
theorem walk_misses_none (hdated : s.books.Dated) (hpages : s.pages = [])
    (hexec : exec (Walk.step W status limit) s ls = some s')
    (hties : ∀ e ∈ trace (Walk.step W status limit) s ls, e.1.books.NoTies)
    (hstay : ∀ e ∈ trace (Walk.step W status limit) s ls, ∀ st ∈ status,
      e.1.books.Stays e.2.2.books st)
    (hend : ∃ page ∈ s'.pages, page.length < limit) :
    ∀ r ∈ s.books.selected status, ∃ page ∈ s'.pages, ∃ r' ∈ page, r'.1.id = r.1.id := by
  intro r hr
  have hstart : Paged status limit r.1.id r.2 s := by
    refine .ahead r hr rfl rfl ?_ ?_
    · rw [hpages, List.length_nil, Nat.zero_mul]
      exact Nat.zero_le _
    · rw [hpages]
      intro page hpage
      cases hpage
  have hlast : s'.books.Dated ∧ Paged status limit r.1.id r.2 s' :=
    invariant_of_exec
      (H := fun e => e.1.books.NoTies ∧ ∀ st ∈ status, e.1.books.Stays e.2.2.books st)
      (I := fun v => v.books.Dated ∧ Paged status limit r.1.id r.2 v) ⟨hdated, hstart⟩
      (fun v a v' ⟨hv, hpaged⟩ ⟨hvties, hvstay⟩ hs =>
        ⟨dated_of_step hv hs, paged_of_step hv hvties hvstay hs hpaged⟩)
      (fun e he => ⟨hties e he, hstay e he⟩) hexec
  cases hlast.2 with
  | seen page hpage r' hr' hid => exact ⟨page, hpage, r', hr', hid⟩
  | ahead r' hr' hid ht hle hfull =>
    -- then all pages would be full
    obtain ⟨page, hpage, hshort⟩ := hend
    exact absurd (hfull page hpage) hshort.ne

/-- Three calls for one payment each, while time goes by. -/
def walkRun (b : Books) : List WalkAction :=
  [.fetch b.rows.reverse, .fetch b.rows.reverse, .act (.tick 1), .fetch b.rows.reverse]

theorem walk_misses_none_example :
    ∃ b, exec (Books.step exampleWatcher) exampleBooks chartRun = some b ∧ b.rows.length = 2 ∧
      ∃ s, exec (Walk.step exampleWatcher none 1) ⟨b, []⟩ (walkRun b) = some s ∧
        ∀ r ∈ b.rows, ∃ page ∈ s.pages, ∃ r' ∈ page, r'.1.id = r.1.id := by
  have hrun : ∃ b, exec (Books.step exampleWatcher) exampleBooks chartRun = some b ∧
      b.rows.length = 2 ∧ b.createdAt.length = b.world.db.payments.length ∧
      (∀ t ∈ b.createdAt, t ≤ b.clock) ∧
      (∀ e ∈ trace (Walk.step exampleWatcher none 1) ⟨b, []⟩ (walkRun b), e.1.books.NoTies) ∧
      (exec (Walk.step exampleWatcher none 1) ⟨b, []⟩ (walkRun b)).any
        (fun s => decide (∃ page ∈ s.pages, page.length < 1)) :=
    exists_exec_of_any (by decide +kernel)
  obtain ⟨b, hexec, htwo, hlength, hclock, hties, hwalk⟩ := hrun
  obtain ⟨s, hs, hend⟩ := exists_exec_of_any hwalk
  refine ⟨b, hexec, htwo, s, hs, ?_⟩
  have hseen := walk_misses_none ⟨hlength, hclock⟩ rfl hs hties (by rintro e - st ⟨⟩) hend
  intro r hr
  exact hseen r (List.mem_filter.mpr ⟨hr, rfl⟩)

end Run

end KonfirmBackend.Admin
