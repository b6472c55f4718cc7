import KonfirmBackend.Lib.UndoLog
import Mathlib.Data.Finset.Erase
import Mathlib.Data.Finset.Filter
import Mathlib.Data.Finset.Insert

/-!
# What the migrations make

The scripts of `db/migrations`, as far as they create and drop what a schema consists of. Each
`down` takes back what its `up` has made, but for the extension of `001_merchants`. Fifteen of the
seventeen do so by dropping what they have created; `012_scale_indexes` drops an index of
`link_sessions` as well, and creates it again.

## Main definitions

- `SchemaObject`, `Ddl` — what a script creates or drops
- `migrations` — the scripts
- `reverted` — the schema but for the extension

## Main results

- `undoes_migrations` — in whatever order the others were applied, reverting the last migration
  takes back what it has made
-/

namespace KonfirmBackend.Migrate

open UndoLog

/-- Columns are those that are added to a table of another migration. -/
inductive SchemaObject
  | extension (name : String)
  | function (name : String)
  | table (name : String)
  | column (table name : String)
  | index (table name : String)
deriving DecidableEq

namespace SchemaObject

/-- What an object belongs to, and is dropped with. -/
def on : SchemaObject → Option SchemaObject
  | .column t _ | .index t _ => some (.table t)
  | .extension _ | .function _ | .table _ => none

end SchemaObject

/-- A `CREATE` or `DROP`, or the `ALTER TABLE` of a column. -/
inductive Ddl
  | create (object : SchemaObject)
  | drop (object : SchemaObject)
deriving DecidableEq

namespace Ddl

def object : Ddl → SchemaObject
  | .create object | .drop object => object

/-- `IF NOT EXISTS` and `IF EXISTS`. Nothing is made of what belongs to a table that is not there:
that statement fails, and its script with it. -/
def exec (s : Finset SchemaObject) : Ddl → Finset SchemaObject
  | .create object => if ∀ parent ∈ object.on, parent ∈ s then insert object s else s
  | .drop object => s.filter fun x => x ≠ object ∧ x.on ≠ some object

end Ddl

/-- The statements of `name.up.sql` and of `name.down.sql`. -/
structure Migration where
  name : String
  up : List Ddl
  down : List Ddl

open SchemaObject in
def migrations : List Migration :=
  [⟨"001_merchants",
      [.create (extension "pgcrypto"), .create (table "merchants"),
        .create (function "claim_link_seq")],
      [.drop (function "claim_link_seq"), .drop (table "merchants")]⟩,
    ⟨"002_links",
      [.create (table "links"), .create (index "links" "links_merchant_active_idx")],
      [.drop (table "links")]⟩,
    ⟨"003_payments",
      [.create (table "payments"), .create (index "payments" "payments_merchant_idx"),
        .create (index "payments" "payments_link_idx"),
        .create (index "payments" "payments_muxed_id_idx")],
      [.drop (table "payments")]⟩,
    ⟨"004_reconciler_state", [.create (table "reconciler_state")],
      [.drop (table "reconciler_state")]⟩,
    ⟨"005_link_sessions",
      [.create (table "link_sessions"),
        .create (index "link_sessions" "link_sessions_lookup_idx")],
      [.drop (table "link_sessions")]⟩,
    ⟨"006_admins", [.create (table "admins")], [.drop (table "admins")]⟩,
    ⟨"007_admin_actions", [.create (table "admin_actions")], [.drop (table "admin_actions")]⟩,
    ⟨"008_blocked_addresses", [.create (table "blocked_addresses")],
      [.drop (table "blocked_addresses")]⟩,
    ⟨"009_withdrawal_attempts", [.create (table "withdrawal_attempts")],
      [.drop (table "withdrawal_attempts")]⟩,
    ⟨"010_x402_settlements", [.create (table "x402_settlements")],
      [.drop (table "x402_settlements")]⟩,
    ⟨"011_x402_channels",
      [.create (table "x402_channels"),
        .create (index "x402_channels" "idx_x402_channels_open_activity"),
        .create (index "x402_channels" "idx_x402_channels_closing")],
      [.drop (table "x402_channels")]⟩,
    ⟨"012_scale_indexes",
      [.create (index "payments" "payments_created_at_idx"),
        .create (index "payments" "payments_status_created_at_idx"),
        .create (index "x402_settlements" "x402_settlements_created_at_idx"),
        .create (index "x402_settlements" "x402_settlements_status_created_at_idx"),
        .create (index "admin_actions" "admin_actions_created_at_idx"),
        .create (index "withdrawal_attempts" "withdrawal_attempts_created_at_idx"),
        .create (index "links" "links_created_at_idx"),
        .drop (index "link_sessions" "link_sessions_lookup_idx")],
      [.create (index "link_sessions" "link_sessions_lookup_idx"),
        .drop (index "links" "links_created_at_idx"),
        .drop (index "withdrawal_attempts" "withdrawal_attempts_created_at_idx"),
        .drop (index "admin_actions" "admin_actions_created_at_idx"),
        .drop (index "x402_settlements" "x402_settlements_status_created_at_idx"),
        .drop (index "x402_settlements" "x402_settlements_created_at_idx"),
        .drop (index "payments" "payments_status_created_at_idx"),
        .drop (index "payments" "payments_created_at_idx")]⟩,
    ⟨"013_payments_fx_rate", [.create (column "payments" "fx_rate_to_usd")],
      [.drop (column "payments" "fx_rate_to_usd")]⟩,
    ⟨"014_referrals",
      [.create (column "merchants" "referral_code"), .create (table "referrals"),
        .create (index "referrals" "idx_referrals_referrer")],
      [.drop (table "referrals"), .drop (column "merchants" "referral_code")]⟩,
    ⟨"015_referral_promos",
      [.create (column "merchants" "promo_fee_bps"),
        .create (column "merchants" "promo_expires_at"),
        .create (column "merchants" "promo_volume_cap_usdc"),
        .create (column "referrals" "reward_granted_at")],
      [.drop (column "referrals" "reward_granted_at"),
        .drop (column "merchants" "promo_volume_cap_usdc"),
        .drop (column "merchants" "promo_expires_at"),
        .drop (column "merchants" "promo_fee_bps")]⟩,
    ⟨"016_bazaar_listings",
      [.create (table "bazaar_listings"),
        .create (index "bazaar_listings" "idx_bazaar_listings_status")],
      [.drop (table "bazaar_listings")]⟩,
    ⟨"017_facilitator_spend_guard",
      [.create (table "facilitator_spend_log"),
        .create (index "facilitator_spend_log" "idx_facilitator_spend_log_created_at"),
        .create (table "facilitator_state")],
      [.drop (table "facilitator_state"), .drop (table "facilitator_spend_log")]⟩]

/-- The migration of a name; others are of no concern here. -/
def migration (name : String) : Migration :=
  (migrations.find? fun m => decide (m.name = name)).getD ⟨name, [], []⟩

/-- The statements of the script that an entry of the log stands for. -/
def ddl : Entry String → List Ddl
  | .did name => (migration name).up
  | .undid name => (migration name).down

def execDdl (s : Finset SchemaObject) (entry : Entry String) : Finset SchemaObject :=
  (ddl entry).foldl Ddl.exec s

/-- The index that `012_scale_indexes.up.sql` drops and its `down` creates again. -/
def lookupIndex : SchemaObject := .index "link_sessions" "link_sessions_lookup_idx"

/-- What is not always created by an `up` and dropped by its `down`. -/
def irregular : List SchemaObject := [.extension "pgcrypto", lookupIndex]

/-- The schema but for the extension, which no script drops. -/
def reverted (s : Finset SchemaObject) : Finset SchemaObject := s.erase (.extension "pgcrypto")

/-! ## What the scripts have in common -/

variable {s t : Finset SchemaObject} {d : Ddl} {ds : List Ddl} {x o p : SchemaObject}
  {a b : String}

theorem on_eq_none_of_on (h : x.on = some p) : p.on = none ∧ p ∉ irregular := by
  cases x with
  | column t c | index t c =>
    obtain rfl : SchemaObject.table t = p := Option.some.inj h
    exact ⟨rfl, by simp [irregular, lookupIndex]⟩
  | extension e | function e | table e => cases h

theorem mem_create : x ∈ Ddl.exec s (.create o) ↔
    x ∈ s ∨ x = o ∧ ∀ parent ∈ o.on, parent ∈ s := by
  by_cases h : ∀ parent ∈ o.on, parent ∈ s
  · rw [Ddl.exec, if_pos h, Finset.mem_insert, or_comm, and_iff_left h]
  · rw [Ddl.exec, if_neg h, or_iff_left fun hx => h hx.2]

theorem mem_drop : x ∈ Ddl.exec s (.drop o) ↔ x ∈ s ∧ x ≠ o ∧ x.on ≠ some o := by
  rw [Ddl.exec, Finset.mem_filter]

theorem reverted_eq_iff :
    reverted s = reverted t ↔ ∀ x ≠ .extension "pgcrypto", (x ∈ s ↔ x ∈ t) := by
  simp only [reverted, Finset.ext_iff, Finset.mem_erase, and_congr_right_iff]

theorem migration_mem_or (name : String) : (migration name).name = name ∧
    (migration name ∈ migrations ∨ (migration name).up = [] ∧ (migration name).down = []) := by
  unfold migration
  cases h : migrations.find? fun m => decide (m.name = name) with
  | none => exact ⟨rfl, .inr ⟨rfl, rfl⟩⟩
  | some m => exact ⟨by simpa using List.find?_some h, .inl (List.mem_of_find?_eq_some h)⟩

/-- What an `up` creates, its `down` drops. -/
theorem exists_drop (hx : x ∉ irregular) (hup : .create x ∈ (migration a).up) :
    ∃ o, .drop o ∈ (migration a).down ∧ (x = o ∨ x.on = some o) := by
  have hall : ∀ m ∈ migrations, ∀ d ∈ m.up, d = .create d.object → d.object ∉ irregular →
      ∃ d' ∈ m.down, d' = .drop d'.object ∧
        (d.object = d'.object ∨ d.object.on = some d'.object) := by
    decide +kernel
  obtain ⟨-, hmem | ⟨hnil, -⟩⟩ := migration_mem_or a
  · obtain ⟨d, hd, hdrop, hcovers⟩ := hall _ hmem _ hup rfl hx
    exact ⟨d.object, hdrop ▸ hd, hcovers⟩
  · rw [hnil] at hup
    cases hup

/-- No `down` drops what another `up` creates. -/
theorem eq_of_create_drop (hup : .create o ∈ (migration b).up)
    (hdown : .drop o ∈ (migration a).down) : b = a := by
  have hall : ∀ m ∈ migrations, ∀ m' ∈ migrations, ∀ d ∈ m'.up, ∀ d' ∈ m.down,
      d = .create d.object → d' = .drop d.object → m'.name = m.name := by
    decide +kernel
  obtain ⟨hb, hbmem | ⟨hnil, -⟩⟩ := migration_mem_or b
  · obtain ⟨ha, hamem | ⟨-, hnil⟩⟩ := migration_mem_or a
    · rw [← ha, ← hb]
      exact hall _ hamem _ hbmem _ hup _ hdown rfl rfl
    · rw [hnil] at hdown
      cases hdown
  · rw [hnil] at hup
    cases hup

/-- An `up` only creates, and a `down` only drops. -/
theorem create_of_up (hd : d ∈ (migration a).up) (hobject : d.object ∉ irregular) :
    d = .create d.object := by
  have hall : ∀ m ∈ migrations, ∀ d ∈ m.up, d.object ∉ irregular → d = .create d.object := by
    decide +kernel
  obtain ⟨-, hmem | ⟨hnil, -⟩⟩ := migration_mem_or a
  · exact hall _ hmem d hd hobject
  · rw [hnil] at hd
    cases hd

theorem drop_of_down (hd : d ∈ (migration a).down) (hobject : d.object ∉ irregular) :
    d = .drop d.object := by
  have hall : ∀ m ∈ migrations, ∀ d ∈ m.down, d.object ∉ irregular → d = .drop d.object := by
    decide +kernel
  obtain ⟨-, hmem | ⟨-, hnil⟩⟩ := migration_mem_or a
  · exact hall _ hmem d hd hobject
  · rw [hnil] at hd
    cases hd

/-! ## What a script makes of a schema -/

/-- Nothing belongs to the extension. -/
theorem reverted_exec (h : reverted s = reverted t) (d : Ddl) :
    reverted (d.exec s) = reverted (d.exec t) := by
  rw [reverted_eq_iff] at h ⊢
  intro x hx
  cases d with
  | create o =>
    have hparents : (∀ parent ∈ o.on, parent ∈ s) ↔ ∀ parent ∈ o.on, parent ∈ t := by
      refine forall₂_congr fun parent hparent => h parent ?_
      rintro rfl
      exact (on_eq_none_of_on hparent).2 List.mem_cons_self
    rw [mem_create, mem_create, h x hx, hparents]
  | drop o => rw [mem_drop, mem_drop, h x hx]

theorem reverted_foldl (h : reverted s = reverted t) (ds : List Ddl) :
    reverted (ds.foldl Ddl.exec s) = reverted (ds.foldl Ddl.exec t) := by
  induction ds generalizing s t with
  | nil => exact h
  | cons d ds ih => exact ih (reverted_exec h d)

/-- A statement about the extension or the index leaves the rest. -/
theorem mem_exec_of_irregular (hd : d.object ∈ irregular) (hx : x ∉ irregular) :
    x ∈ d.exec s ↔ x ∈ s := by
  cases d with
  | create o =>
    have hne : x ≠ o := fun heq => hx (heq ▸ hd)
    rw [mem_create, or_iff_left fun h => hne h.1]
  | drop o =>
    have hne : x ≠ o := fun heq => hx (heq ▸ hd)
    have hon : x.on ≠ some o := fun heq => (on_eq_none_of_on heq).2 hd
    rw [mem_drop, and_iff_left ⟨hne, hon⟩]

/-- After an `up`: the schema before and some of what the script creates, each with what it
belongs to. -/
structure Grows (ds : List Ddl) (s t : Finset SchemaObject) : Prop where
  subset : ∀ x ∉ irregular, x ∈ s → x ∈ t
  created : ∀ x ∉ irregular, x ∈ t → x ∈ s ∨ .create x ∈ ds
  parents : (∀ x ∉ irregular, x ∈ s → ∀ p ∈ x.on, p ∈ s) →
    ∀ x ∉ irregular, x ∈ t → ∀ p ∈ x.on, p ∈ t

theorem grows_exec (hd : d.object ∉ irregular → d = .create d.object) : Grows [d] s (d.exec s) := by
  by_cases hobject : d.object ∈ irregular
  · refine ⟨fun x hx => (mem_exec_of_irregular hobject hx).mpr,
      fun x hx hmem => .inl ((mem_exec_of_irregular hobject hx).mp hmem), ?_⟩
    intro hclosed x hx hmem p hp
    exact (mem_exec_of_irregular hobject (on_eq_none_of_on hp).2).mpr
      (hclosed x hx ((mem_exec_of_irregular hobject hx).mp hmem) p hp)
  · obtain ⟨o, rfl⟩ : ∃ o, d = .create o := ⟨_, hd hobject⟩
    refine ⟨fun x _ hmem => mem_create.mpr (.inl hmem), fun x _ hmem => ?_, ?_⟩
    · refine (mem_create.mp hmem).imp_right fun hnew => ?_
      rw [hnew.1]
      exact List.mem_singleton_self _
    · intro hclosed x hx hmem p hp
      rw [mem_create]
      obtain hold | ⟨rfl, hparents⟩ := mem_create.mp hmem
      · exact .inl (hclosed x hx hold p hp)
      · exact .inl (hparents p hp)

theorem grows_foldl (hds : ∀ d ∈ ds, d.object ∉ irregular → d = .create d.object) :
    Grows ds s (ds.foldl Ddl.exec s) := by
  induction ds generalizing s with
  | nil => exact ⟨fun x _ h => h, fun x _ h => .inl h, fun h => h⟩
  | cons d ds ih =>
    have hfirst : Grows [d] s (d.exec s) := grows_exec (hds d List.mem_cons_self)
    have hrest := ih (s := d.exec s) fun d' hd' => hds d' (List.mem_cons_of_mem _ hd')
    refine ⟨fun x hx hmem => hrest.subset x hx (hfirst.subset x hx hmem), ?_,
      fun hclosed => hrest.parents (hfirst.parents hclosed)⟩
    intro x hx hmem
    obtain hstep | hlater := hrest.created x hx hmem
    · refine (hfirst.created x hx hstep).imp_right fun hnew => ?_
      rw [List.mem_singleton.mp hnew]
      exact List.mem_cons_self
    · exact .inr (List.mem_cons_of_mem _ hlater)

/-- After a `down`: what it drops is gone, and all that belongs to it. -/
theorem mem_foldl_down (hds : ∀ d ∈ ds, d.object ∉ irregular → d = .drop d.object)
    (hx : x ∉ irregular) :
    x ∈ ds.foldl Ddl.exec s ↔ x ∈ s ∧ ∀ o, .drop o ∈ ds → x ≠ o ∧ x.on ≠ some o := by
  induction ds generalizing s with
  | nil => simp
  | cons d ds ih =>
    rw [List.foldl_cons, ih fun d' hd' => hds d' (List.mem_cons_of_mem _ hd')]
    by_cases hobject : d.object ∈ irregular
    · rw [mem_exec_of_irregular hobject hx]
      refine and_congr_right fun _ => forall_congr' fun o => ?_
      rw [List.mem_cons]
      refine ⟨?_, fun h hmem => h (.inr hmem)⟩
      rintro h (rfl | hmem)
      · exact ⟨fun heq => hx (heq ▸ hobject), fun heq => (on_eq_none_of_on heq).2 hobject⟩
      · exact h hmem
    · obtain ⟨o, rfl⟩ : ∃ o, d = .drop o := ⟨_, hds d List.mem_cons_self hobject⟩
      rw [mem_drop, and_assoc]
      refine and_congr_right fun _ => ⟨?_, fun h => ⟨h o List.mem_cons_self, fun o' ho' =>
        h o' (List.mem_cons_of_mem _ ho')⟩⟩
      rintro ⟨hfirst, hrest⟩ o' ho'
      obtain heq | hmem := List.mem_cons.mp ho'
      · obtain rfl : o' = o := Ddl.drop.inj heq
        exact hfirst
      · exact hrest o' hmem

/-- What the migrations have made, with what it belongs to. -/
structure MadeBy (names : List String) (s : Finset SchemaObject) : Prop where
  created : ∀ x ∉ irregular, x ∈ s → ∃ name ∈ names, .create x ∈ (migration name).up
  parents : ∀ x ∉ irregular, x ∈ s → ∀ p ∈ x.on, p ∈ s

theorem madeBy_build (names : List String) : MadeBy names (build execDdl ∅ names) := by
  induction names using List.reverseRecOn with
  | nil => constructor <;> simp [build]
  | append_singleton names name ih =>
    rw [build_concat]
    have hgrows : Grows (migration name).up (build execDdl ∅ names)
        (execDdl (build execDdl ∅ names) (.did name)) :=
      grows_foldl fun d hd => create_of_up hd
    refine ⟨fun x hx hmem => ?_, hgrows.parents ih.parents⟩
    obtain hold | hnew := hgrows.created x hx hmem
    · obtain ⟨name', hname', hcreate⟩ := ih.created x hx hold
      exact ⟨name', List.mem_append_left _ hname', hcreate⟩
    · exact ⟨name, List.mem_append_right _ (List.mem_singleton_self _), hnew⟩

/-! ## The index of the sessions -/

/-- Statements about other objects leave an object as it is. -/
theorem mem_foldl_of_ne (hds : ∀ d ∈ ds, d.object ≠ x ∧ x.on ≠ some d.object) :
    x ∈ ds.foldl Ddl.exec s ↔ x ∈ s := by
  induction ds generalizing s with
  | nil => rfl
  | cons d ds ih =>
    rw [List.foldl_cons, ih fun d' hd' => hds d' (List.mem_cons_of_mem _ hd')]
    obtain ⟨hne, hon⟩ := hds d List.mem_cons_self
    cases d with
    | create o => rw [mem_create, or_iff_left fun h => hne h.1.symm]
    | drop o => rw [mem_drop, and_iff_left ⟨hne.symm, hon⟩]

def sessionsTable : SchemaObject := .table "link_sessions"

/-- Only two migrations are about the sessions. -/
theorem mem_execDdl_of_ne {entry : Entry String} (htable : entry.action ≠ "005_link_sessions")
    (hscale : entry.action ≠ "012_scale_indexes") (hx : x ∈ [sessionsTable, lookupIndex]) :
    x ∈ execDdl s entry ↔ x ∈ s := by
  have hall : ∀ m ∈ migrations, m.name ≠ "005_link_sessions" → m.name ≠ "012_scale_indexes" →
      ∀ d ∈ m.up ++ m.down, ∀ x ∈ [sessionsTable, lookupIndex],
        d.object ≠ x ∧ x.on ≠ some d.object := by
    decide +kernel
  have hscripts : ∀ d ∈ (migration entry.action).up ++ (migration entry.action).down,
      d.object ≠ x ∧ x.on ≠ some d.object := by
    obtain ⟨hname, hmem | ⟨hup, hdown⟩⟩ := migration_mem_or entry.action
    · exact fun d hd => hall _ hmem (by rwa [hname]) (by rwa [hname]) d hd x hx
    · simp [hup, hdown]
  refine mem_foldl_of_ne fun d hd => hscripts d ?_
  cases entry with
  | did name => exact List.mem_append_left _ hd
  | undid name => exact List.mem_append_right _ hd

theorem sessions_up : (migration "005_link_sessions").up =
    [.create sessionsTable, .create lookupIndex] := by
  decide +kernel

/-- The table that an index belongs to is there before the index is created. -/
theorem sessionsTable_mem : sessionsTable ∈ Ddl.exec s (.create sessionsTable) :=
  mem_create.mpr (.inr ⟨rfl, nofun⟩)

theorem sessionsTable_did (s : Finset SchemaObject) (name : String) :
    sessionsTable ∈ execDdl s (.did name) ↔ name = "005_link_sessions" ∨ sessionsTable ∈ s := by
  by_cases htable : name = "005_link_sessions"
  · subst htable
    refine iff_of_true ?_ (.inl rfl)
    rw [execDdl, ddl, sessions_up, List.foldl_cons, List.foldl_cons, List.foldl_nil]
    exact mem_create.mpr (.inl sessionsTable_mem)
  · rw [or_iff_right htable]
    by_cases hscale : name = "012_scale_indexes"
    · subst hscale
      have hup : ∀ d ∈ (migration "012_scale_indexes").up,
          d.object ≠ sessionsTable ∧ sessionsTable.on ≠ some d.object := by
        decide +kernel
      exact mem_foldl_of_ne hup
    · exact mem_execDdl_of_ne htable hscale List.mem_cons_self

theorem lookupIndex_did (s : Finset SchemaObject) (name : String) :
    lookupIndex ∈ execDdl s (.did name) ↔
      name = "005_link_sessions" ∨ name ≠ "012_scale_indexes" ∧ lookupIndex ∈ s := by
  by_cases htable : name = "005_link_sessions"
  · subst htable
    refine iff_of_true ?_ (.inl rfl)
    rw [execDdl, ddl, sessions_up, List.foldl_cons, List.foldl_cons, List.foldl_nil]
    refine mem_create.mpr (.inr ⟨rfl, ?_⟩)
    rintro _ ⟨⟩
    exact sessionsTable_mem
  · rw [or_iff_right htable]
    by_cases hscale : name = "012_scale_indexes"
    · subst hscale
      -- the drop is the last statement
      have hup : (migration "012_scale_indexes").up =
          (migration "012_scale_indexes").up.dropLast ++ [.drop lookupIndex] := by
        decide +kernel
      refine iff_of_false ?_ fun h => h.1 rfl
      rw [execDdl, ddl, hup, List.foldl_append, List.foldl_cons, List.foldl_nil, mem_drop]
      exact fun h => h.2.1 rfl
    · rw [and_iff_right hscale]
      exact mem_execDdl_of_ne htable hscale (List.mem_cons_of_mem _ List.mem_cons_self)

theorem lookupIndex_undid (s : Finset SchemaObject) (name : String) :
    lookupIndex ∈ execDdl s (.undid name) ↔ name ≠ "005_link_sessions" ∧
      (lookupIndex ∈ s ∨ name = "012_scale_indexes" ∧ sessionsTable ∈ s) := by
  by_cases htable : name = "005_link_sessions"
  · subst htable
    have hdown : (migration "005_link_sessions").down = [.drop sessionsTable] := by
      decide +kernel
    refine iff_of_false ?_ fun h => h.1 rfl
    rw [execDdl, ddl, hdown, List.foldl_cons, List.foldl_nil, mem_drop]
    exact fun h => h.2.2 rfl
  · rw [and_iff_right htable]
    by_cases hscale : name = "012_scale_indexes"
    · subst hscale
      -- the index is created first, and no later statement is about it or its table
      have hdown : (migration "012_scale_indexes").down =
          .create lookupIndex :: (migration "012_scale_indexes").down.tail := by
        decide +kernel
      have hrest : ∀ d ∈ (migration "012_scale_indexes").down.tail,
          d.object ≠ lookupIndex ∧ lookupIndex.on ≠ some d.object := by
        decide +kernel
      rw [execDdl, ddl, hdown, List.foldl_cons, mem_foldl_of_ne hrest, mem_create]
      refine or_congr_right ⟨fun h => ⟨rfl, h.2 sessionsTable rfl⟩, fun h => ⟨rfl, ?_⟩⟩
      rintro _ ⟨⟩
      exact h.2
    · rw [or_iff_left fun h => hscale h.1]
      exact mem_execDdl_of_ne htable hscale (List.mem_cons_of_mem _ List.mem_cons_self)

theorem sessionsTable_build (names : List String) :
    sessionsTable ∈ build execDdl ∅ names ↔ "005_link_sessions" ∈ names := by
  induction names using List.reverseRecOn with
  | nil => simp [build]
  | append_singleton names name ih =>
    rw [build_concat, sessionsTable_did, ih, List.mem_append, List.mem_singleton, or_comm,
      eq_comm (a := name)]

/-- The index comes with the table, and goes with `012_scale_indexes`. -/
theorem lookupIndex_build (names : List String) :
    (lookupIndex ∈ build execDdl ∅ names → "005_link_sessions" ∈ names) ∧
    ("012_scale_indexes" ∉ names → "005_link_sessions" ∈ names →
      lookupIndex ∈ build execDdl ∅ names) := by
  induction names using List.reverseRecOn with
  | nil => simp [build]
  | append_singleton names name ih =>
    rw [build_concat, lookupIndex_did, List.mem_append, List.mem_append, List.mem_singleton,
      List.mem_singleton, not_or]
    constructor
    · rintro (htable | ⟨-, hmem⟩)
      · exact .inr htable.symm
      · exact .inl (ih.1 hmem)
    · rintro ⟨hscale, hne⟩ (hmem | htable)
      · exact .inr ⟨Ne.symm hne, ih.2 hscale hmem⟩
      · exact .inl htable.symm

/-- A migration that is about the index puts it back. -/
theorem lookupIndex_reverted {names : List String} (hnew : a ∉ names) :
    lookupIndex ∈ execDdl (execDdl (build execDdl ∅ names) (.did a)) (.undid a) ↔
      lookupIndex ∈ build execDdl ∅ names := by
  obtain ⟨hthere, hback⟩ := lookupIndex_build names
  rw [lookupIndex_undid, lookupIndex_did, sessionsTable_did, sessionsTable_build]
  by_cases htable : a = "005_link_sessions"
  · exact iff_of_false (fun h => h.1 htable) fun hmem => hnew (htable ▸ hthere hmem)
  · rw [and_iff_right htable, or_iff_right htable, or_iff_right htable]
    by_cases hscale : a = "012_scale_indexes"
    · -- before `a` the index was there exactly if its table was
      rw [and_iff_right hscale, or_iff_right fun h => h.1 hscale]
      exact ⟨hback (hscale ▸ hnew), hthere⟩
    · rw [and_iff_right hscale, or_iff_left fun h => hscale h.1]

/-! ## Reverting -/

/-- **Reverting takes back**: on what other migrations have made, in whatever order, a `down`
script undoes its `up` script, but for the extension. -/
theorem undoes_migrations : Undoes reverted execDdl ∅ where
  congr t u e h := reverted_foldl h _
  undo names a hnodup := by
    have hnew : a ∉ names := fun hmem =>
      (List.nodup_append.mp hnodup).2.2 a hmem a (List.mem_singleton_self a) rfl
    have hmade := madeBy_build names
    rw [build_concat, reverted_eq_iff]
    intro x hextension
    by_cases hx : x ∈ irregular
    · obtain rfl : x = lookupIndex := by
        obtain heq | hmem := List.mem_cons.mp hx
        · exact absurd heq hextension
        · exact List.mem_singleton.mp hmem
      exact lookupIndex_reverted hnew
    -- what is there is not of `a`
    have hother : ∀ o ∉ irregular, o ∈ build execDdl ∅ names → .drop o ∉ (migration a).down := by
      intro o ho hmem hdrop
      obtain ⟨name, hname, hcreate⟩ := hmade.created o ho hmem
      exact hnew (eq_of_create_drop hcreate hdrop ▸ hname)
    have hgrows : Grows (migration a).up (build execDdl ∅ names)
        (execDdl (build execDdl ∅ names) (.did a)) :=
      grows_foldl fun d hd => create_of_up hd
    rw [execDdl, ddl, mem_foldl_down (fun d hd => drop_of_down hd) hx]
    constructor
    · -- what the `up` has created is dropped
      rintro ⟨hmem, hdropped⟩
      refine (hgrows.created x hx hmem).resolve_right fun hcreate => ?_
      obtain ⟨o, ho, rfl | hon⟩ := exists_drop hx hcreate
      · exact (hdropped x ho).1 rfl
      · exact (hdropped o ho).2 hon
    · -- and nothing else, since the `down` drops only what `a` has created
      intro hmem
      refine ⟨hgrows.subset x hx hmem, fun o ho => ⟨?_, fun hon => ?_⟩⟩
      · rintro rfl
        exact hother x hx hmem ho
      · exact hother o (on_eq_none_of_on hon).2 (hmade.parents x hx hmem o hon) ho

end KonfirmBackend.Migrate
