import KonfirmBackend.Db.Catalog
import KonfirmBackend.Db.Migrations

/-!
# The schema and its migrations

What the scripts have made of the schema, against the table `schema_migrations`. What a script
does is a parameter, and so is what a schema is and what is observed of it. Files may be added
from one run to the next, but none is ever edited.

## Main definitions

- `Directory.From` — a checkout of the released files
- `Database.schema` — what all scripts together have made
- `migrated` — what the migrations of a list make, each applied once

## Main results

- `schema_of_tracked` — the names in the table determine the schema, and `down` takes back
  what `up` has done
-/

namespace KonfirmBackend.Migrate

open Transition UndoLog

/-- The file of a migration that is run to apply it, or to revert it. -/
def fileOf : Entry String → String
  | .did name => name ++ ".up.sql"
  | .undid name => name ++ ".down.sql"

def scriptOf (content : String → String) (entry : Entry String) : Script :=
  ⟨fileOf entry, content (fileOf entry)⟩

/-- `content` is what is in the files that were ever released. -/
def Directory.From (content : String → String) (dir : Directory) : Prop :=
  ∀ script ∈ dir.files, script.sql = content script.file

section Schema

variable {σ : Type*} (effect : σ → Script → σ) (content : String → String) (empty : σ)

def Database.schema (db : Database) : σ := db.scripts.foldl effect empty

def migrated (names : List String) : σ :=
  build (fun s e => effect s (scriptOf content e)) empty names

end Schema

variable {content : String → String} {dir : Directory} {w w' : World} {e : Ended}

theorem entry_scriptOf (entry : Entry String) : (scriptOf content entry).entry = some entry := by
  cases entry with
  | did name => exact Database.entry_up rfl
  | undid name => exact Database.entry_down rfl

theorem Database.log_append {db db' : Database} {entries : List (Entry String)}
    (h : db'.scripts = db.scripts ++ entries.map (scriptOf content)) :
    db'.log = db.log ++ entries := by
  have hentry : Script.entry ∘ scriptOf content = some := funext entry_scriptOf
  rw [log, h, List.filterMap_append, List.filterMap_map, hentry, List.filterMap_some, log]

/-- What a run has run are the released scripts of the files. -/
theorem Ended.RanFiles.scripts_eq (hdir : dir.From content) {entries : List (Entry String)}
    (h : e.RanFiles dir (entries.map fileOf) w) :
    e.server.database.scripts = w.database.scripts ++ entries.map (scriptOf content) := by
  obtain ⟨new, hnew, hfiles, hscripts⟩ := h
  have hreleased : new.map (fun script => (⟨script.file, content script.file⟩ : Script)) = new := by
    refine (List.map_congr_left fun script hscript => ?_).trans (List.map_id new)
    rw [← hdir script (hnew script hscript), id]
  calc e.server.database.scripts
      = w.database.scripts ++ new := hscripts
    _ = w.database.scripts ++ (new.map Script.file).map fun file => ⟨file, content file⟩ := by
        rw [List.map_map]
        exact congrArg _ hreleased.symm
    _ = w.database.scripts ++ entries.map (scriptOf content) := by
        rw [hfiles, List.map_map]
        rfl

/-! ## Histories of runs -/

/-- The scripts of a database are those of its log, as they were released. -/
structure World.Released (content : String → String) (w : World) : Prop where
  sound : w.Sound
  stacked : Stacked w.database.log
  scripts : w.database.scripts = w.database.log.map (scriptOf content)

theorem World.released_fresh : World.fresh.Released content := ⟨World.sound_fresh, .nil, rfl⟩

theorem World.Released.ran (h : w.Released content) (hdir : dir.From content)
    (hsound : e.server.Sound) {entries : List (Entry String)}
    (hran : e.RanFiles dir (entries.map fileOf) w)
    (hstacked : Stacked (w.database.log ++ entries)) : e.server.world.Released content := by
  have hscripts := hran.scripts_eq hdir
  have hlog : e.server.world.database.log = w.database.log ++ entries :=
    Database.log_append hscripts
  refine ⟨hsound.world, hlog ▸ hstacked, ?_⟩
  rw [hlog, List.map_append, ← h.scripts]
  exact hscripts

theorem World.Released.run_up (h : w.Released content) (hdir : dir.From content)
    (answers : ℕ → Answer) : (w.run ⟨dir, .up, answers⟩).server.world.Released content := by
  obtain ⟨hsound, hup⟩ := h.sound.run_up dir answers
  obtain ⟨files, hinit, hran, happlied, -⟩ := hup.applies
  have hfiles : files = ((files.map migrationName).map Entry.did).map fileOf := by
    rw [List.map_map, List.map_map]
    refine (List.map_id files).symm.trans (List.map_congr_left fun file hfile => ?_)
    obtain ⟨-, name, rfl, -⟩ := (hup.pending_iff file).mp (hinit.subset hfile)
    exact congrArg (· ++ ".up.sql") (migrationName_append name).symm
  rw [hfiles] at hran
  refine h.ran hdir hsound hran (h.stacked.append_did ?_).1
  -- the table has no name twice
  have hnodup := hsound.database.nodup
  rwa [hsound.database.names_eq, happlied] at hnodup

theorem World.Released.run_down (h : w.Released content) (hdir : dir.From content) (steps : ℕ)
    (answers : ℕ → Answer) : (w.run ⟨dir, .down steps, answers⟩).server.world.Released content := by
  obtain ⟨hsound, hdown⟩ := h.sound.run_down dir steps answers
  obtain ⟨names, -, hran, happlied, -⟩ := hdown.reverts
  have hfiles : (names.map fun name => name ++ ".down.sql") =
      (names.map Entry.undid).map fileOf := by
    rw [List.map_map]
    rfl
  rw [hfiles] at hran
  exact h.ran hdir hsound hran (h.stacked.append_undid happlied).1

theorem World.Released.step {r : Run} (h : w.Released content) (hr : r.dir.From content)
    (hs : step w r = some w') : w'.Released content := by
  obtain rfl := Option.some.inj hs
  obtain ⟨dir, command, answers⟩ := r
  cases command with
  | up => exact h.run_up hr answers
  | down steps => exact h.run_down hr steps answers

/-- An `up` and a `down` of as many steps, if both succeed. -/
theorem applied_of_up_down {dir' : Directory} {answers answers' : ℕ → Answer} {e' : Ended}
    (hup : AppliesPending dir answers w e) (hok : e.error = none)
    (hdown : RevertsLatest dir' (w.pending dir).length answers' e.server.world e')
    (hok' : e'.error = none) : e'.server.database.applied = w.database.applied := by
  obtain ⟨files, -, -, happlied, hall⟩ := hup.applies
  obtain ⟨names, -, -, hreverted, hlatest⟩ := hdown.reverts
  have hnames : names = (files.map migrationName).reverse := by
    rw [hlatest hok', ← hall hok, World.latest]
    show e.server.database.applied.reverse.take files.length = _
    rw [happlied, List.reverse_append]
    exact List.take_left' (by simp)
  rw [hnames, List.reverse_reverse] at hreverted
  exact List.append_cancel_right (hreverted.symm.trans happlied)

section

variable {σ ω : Type*} {observe : σ → ω} {effect : σ → Script → σ} {empty : σ}

theorem World.Released.schema_eq (h : w.Released content)
    (hundo : Undoes observe (fun s entry => effect s (scriptOf content entry)) empty) :
    observe (w.database.schema effect empty) =
      observe (migrated effect content empty w.database.names) := by
  rw [Database.schema, h.scripts, List.foldl_map, h.stacked.observe_foldl hundo,
    h.sound.database.names_eq]
  rfl

/-- **The table determines the schema**: after any history of runs, failures included, the
schema looks like what the migrations in the table make, one after another, as if nothing had
ever been reverted or tried in vain. An `up` that succeeds and a `down` of as many steps that
does leave schema and table as they were. -/
theorem schema_of_tracked
    (hundo : Undoes observe (fun s entry => effect s (scriptOf content entry)) empty)
    (h : Reaches step (fun r => r.dir.From content) World.fresh w) :
    observe (w.database.schema effect empty) =
      observe (migrated effect content empty w.database.names) ∧
    ∀ dir dir' answers answers' e e', dir.From content → dir'.From content →
      e = w.run ⟨dir, .up, answers⟩ → e.error = none →
      e' = e.server.world.run ⟨dir', .down (w.pending dir).length, answers'⟩ → e'.error = none →
        e'.server.database.names = w.database.names ∧
          observe (e'.server.database.schema effect empty) =
            observe (w.database.schema effect empty) := by
  have hw : w.Released content :=
    h.invariant World.released_fresh fun _ _ _ hr hs hstep => hs.step hr hstep
  refine ⟨hw.schema_eq hundo, ?_⟩
  rintro dir dir' answers answers' _ _ hdir hdir' rfl hok rfl hok'
  have hw₁ := hw.run_up hdir answers
  have hw₂ := hw₁.run_down hdir' (w.pending dir).length answers'
  have happlied := applied_of_up_down (hw.sound.run_up dir answers).2 hok
    (hw₁.sound.run_down dir' (w.pending dir).length answers').2 hok'
  have hsame := hw₂.sound.database.names_eq.trans (happlied.trans hw.sound.database.names_eq.symm)
  refine ⟨hsame, ?_⟩
  rw [hw.schema_eq hundo, ← hsame]
  exact hw₂.schema_eq hundo

end

/-! ## The migrations of the repository -/

/-- What a script makes of the tables, columns, indexes and functions. -/
def execScriptDdl (s : Finset SchemaObject) (script : Script) : Finset SchemaObject :=
  script.entry.elim s (execDdl s)

theorem undoes_scripts (content : String → String) :
    Undoes reverted (fun s entry => execScriptDdl s (scriptOf content entry)) ∅ := by
  have heffect : (fun s entry => execScriptDdl s (scriptOf content entry)) = execDdl := by
    funext s entry
    rw [execScriptDdl, entry_scriptOf, Option.elim_some]
  rw [heffect]
  exact undoes_migrations

def exampleContent (file : String) : String := "-- " ++ file

def exampleCheckout (files : List String) (h : files.Nodup) : Directory where
  path := "db/migrations"
  files := files.map fun file => ⟨file, exampleContent file⟩
  distinct := by simpa [List.map_map, Function.comp_def] using h

/-- The first `up` gets no answer to its first `COMMIT`. The `down` has no file for its third
step. -/
def exampleHistory : List Run :=
  [⟨exampleCheckout ["001_merchants.up.sql", "002_links.up.sql"] (by decide), .up,
      fun i => if i = 8 then ⟨.lost, 0⟩ else ⟨.done, 0⟩⟩,
    ⟨exampleCheckout ["001_merchants.up.sql", "002_links.up.sql", "003_payments.up.sql",
      "013_payments_fx_rate.up.sql"] (by decide), .up, allDone⟩,
    ⟨exampleCheckout ["003_payments.down.sql", "013_payments_fx_rate.down.sql"] (by decide),
      .down 3, allDone⟩]

open SchemaObject in
theorem schema_of_tracked_example : ∃ w, exec step World.fresh exampleHistory = some w ∧
    w.database.names = ["001_merchants", "002_links"] ∧
    reverted (w.database.schema execScriptDdl ∅) = {table "merchants",
      function "claim_link_seq", table "links", index "links" "links_merchant_active_idx"} := by
  refine ⟨_, rfl, by decide, ?_⟩
  have hfrom : ∀ r ∈ exampleHistory, r.dir.From exampleContent := by
    intro r hr script hscript
    simp only [exampleHistory, List.mem_cons, List.not_mem_nil, or_false] at hr
    obtain rfl | rfl | rfl := hr
    all_goals
      obtain ⟨file, -, rfl⟩ := List.mem_map.mp hscript
      rfl
  rw [(schema_of_tracked (undoes_scripts exampleContent) (Reaches.of_exec hfrom
    (rfl : exec step World.fresh exampleHistory = _))).1]
  decide +kernel

end KonfirmBackend.Migrate
