import KonfirmBackend.Db.Migrate
import KonfirmBackend.Lib.Transition
import KonfirmBackend.Lib.UndoLog

/-!
# Migrations are tracked

The table `schema_migrations` against the scripts that the schema has gone through, over any
number of runs of `up` and `down` with failures anywhere. Each committed state has a row for
the migrations in effect and for no others, in the order of application, so that `down` can
find the last ones by their times.

## Main definitions

- `Database.applied` — the migrations in effect, in order of application
- `Database.Tracked` — the table has the migrations in effect
- `AppliesPending`, `RevertsLatest` — what a run does to the migrations in effect

## Main results

- `Database.Sound.applies`, `Database.Sound.reverts` — what a transaction keeps
- `ends_up`, `ends_down` — what a run keeps, however it ends
- `migrations_tracked` — of every history of runs
-/

namespace KonfirmBackend.Migrate

open Program Transition

/-! ## Migrations in effect -/

/-- What it means for the migrations that a script was run. -/
def Script.entry (script : Script) : Option (UndoLog.Entry String) :=
  match stripSuffix ".up.sql" script.file with
  | some name => some (.did name)
  | none => (stripSuffix ".down.sql" script.file).map .undid

def Database.log (db : Database) : List (UndoLog.Entry String) := db.scripts.filterMap Script.entry

def Database.applied (db : Database) : List String := UndoLog.applied db.log

/-- The names in the table are those of the migrations whose last script is their `up`. -/
def Database.Tracked (db : Database) : Prop :=
  ∀ name, name ∈ db.names ↔ UndoLog.InEffect db.log name

/-- The table lists the migrations in effect in order of application, which is the order of
the times in it. -/
structure Database.Sound (clock : ℕ) (db : Database) : Prop where
  names_eq : db.names = db.applied
  increasing : db.rows.Pairwise fun r r' => r.appliedAt < r'.appliedAt
  le_clock : ∀ r ∈ db.rows, r.appliedAt ≤ clock
  nodup : db.names.Nodup

namespace Database

variable {db db' : Database} {clock now : ℕ} {script : Script} {name : String}

theorem Sound.tracked (h : db.Sound clock) : db.Tracked := by
  intro name
  rw [h.names_eq, applied, UndoLog.mem_applied_iff]

theorem Sound.mono {clock' : ℕ} (h : db.Sound clock) (hle : clock ≤ clock') : db.Sound clock' :=
  ⟨h.names_eq, h.increasing, fun r hr => (h.le_clock r hr).trans hle, h.nodup⟩

theorem sound_fresh (clock : ℕ) : (⟨none, []⟩ : Database).Sound clock :=
  ⟨rfl, List.Pairwise.nil, fun _ hr => absurd hr List.not_mem_nil, List.nodup_nil⟩

theorem Sound.createTable (h : db.Sound clock) : db.createTable.Sound clock :=
  ⟨h.names_eq, h.increasing, h.le_clock, h.nodup⟩

theorem log_concat (hscripts : db'.scripts = db.scripts ++ [script])
    {e : UndoLog.Entry String} (he : script.entry = some e) : db'.log = db.log ++ [e] := by
  rw [log, hscripts, List.filterMap_append, List.filterMap_cons_some he, List.filterMap_nil, log]

theorem entry_up (hfile : script.file = name ++ ".up.sql") : script.entry = some (.did name) := by
  rw [Script.entry, hfile, stripSuffix_append]

theorem entry_down (hfile : script.file = name ++ ".down.sql") :
    script.entry = some (.undid name) := by
  rw [Script.entry, hfile, stripSuffix_up_down, stripSuffix_append, Option.map_some]

/-! ## What a transaction makes of them -/

/-- The table is there. -/
def HasTable (db : Database) : Prop := db.schemaMigrations = some db.rows

/-- `db'` is `db` after a script, with `applied` in effect. -/
structure Advances (db : Database) (script : Script) (applied : List String) (now : ℕ)
    (db' : Database) : Prop where
  sound : db'.Sound now
  table : db'.HasTable
  scripts : db'.scripts = db.scripts ++ [script]
  applied_eq : db'.applied = applied

theorem transact_insertName (htable : db.HasTable) :
    transact script (insertName name) now db =
      if name ∈ db.names then none
      else some ⟨some (db.rows ++ [⟨name, now⟩]), db.scripts ++ [script]⟩ := by
  rw [HasTable] at htable
  rw [transact, execScript, Option.bind_some, insertName, htable, Option.bind_some]
  rfl

theorem transact_deleteName (htable : db.HasTable) :
    transact script (deleteName name) now db =
      some ⟨some (db.rows.filter fun r => r.name ≠ name), db.scripts ++ [script]⟩ := by
  rw [HasTable] at htable
  rw [transact, execScript, Option.bind_some, deleteName, htable, Option.map_some]

theorem Sound.applies (h : db.Sound clock) (htable : db.HasTable) (hclock : clock < now)
    (hfile : script.file = name ++ ".up.sql")
    (hdb' : transact script (insertName name) now db = some db') :
    db.Advances script (db.applied ++ [name]) now db' := by
  rw [transact_insertName htable] at hdb'
  split at hdb'
  · cases hdb'
  · rename_i hnew
    obtain rfl := Option.some.inj hdb'
    have hrows : (⟨some (db.rows ++ [⟨name, now⟩]), db.scripts ++ [script]⟩ : Database).names =
        db.names ++ [name] := List.map_append
    have happlied : (⟨some (db.rows ++ [⟨name, now⟩]), db.scripts ++ [script]⟩ : Database).applied =
        db.applied ++ [name] := by
      rw [applied, log_concat rfl (entry_up hfile), UndoLog.applied_concat_did, applied]
    refine ⟨⟨by rw [hrows, happlied, h.names_eq], ?_, ?_, ?_⟩, rfl, rfl, happlied⟩
    · show (db.rows ++ [_]).Pairwise _
      rw [List.pairwise_append]
      refine ⟨h.increasing, List.pairwise_singleton _ _, ?_⟩
      intro r hr r' hr'
      obtain rfl := List.mem_singleton.mp hr'
      exact (h.le_clock r hr).trans_lt hclock
    · intro r hr
      rcases List.mem_append.mp hr with hr | hr
      · exact (h.le_clock r hr).trans hclock.le
      · obtain rfl := List.mem_singleton.mp hr
        exact le_rfl
    · rw [hrows]
      exact List.nodup_append.mpr ⟨h.nodup, List.nodup_singleton _, fun a ha b hb hab =>
        hnew (by rwa [← List.mem_singleton.mp hb, ← hab])⟩

theorem Sound.reverts (h : db.Sound clock) (htable : db.HasTable) (hclock : clock < now)
    (hfile : script.file = name ++ ".down.sql") {kept : List String}
    (hlast : db.applied = kept ++ [name])
    (hdb' : transact script (deleteName name) now db = some db') :
    db.Advances script kept now db' := by
  rw [transact_deleteName htable] at hdb'
  obtain rfl := Option.some.inj hdb'
  have hnames : (⟨some (db.rows.filter fun r => r.name ≠ name), db.scripts ++ [script]⟩ :
      Database).names = db.names.filter (· ≠ name) := by
    rw [names, names, List.filter_map]
    rfl
  have happlied : (⟨some (db.rows.filter fun r => r.name ≠ name), db.scripts ++ [script]⟩ :
      Database).applied = UndoLog.replay db.applied (.undid name) := by
    rw [applied, log_concat rfl (entry_down hfile), UndoLog.applied_concat, applied]
  have hkept : UndoLog.replay db.applied (.undid name) = kept := by
    rw [applied, ← UndoLog.applied_concat]
    exact UndoLog.applied_concat_undid hlast (by rw [← applied, ← h.names_eq]; exact h.nodup)
  refine ⟨⟨?_, h.increasing.filter _, ?_, ?_⟩, rfl, rfl, happlied.trans hkept⟩
  · rw [hnames, happlied, h.names_eq, UndoLog.replay]
  · intro r hr
    exact (h.le_clock r (List.mem_filter.mp hr).1).trans hclock.le
  · rw [hnames]
    exact h.nodup.filter _

end Database

/-- The latest rows are the last ones. -/
theorem latestNames_eq {rows : List Row}
    (h : rows.Pairwise fun r r' => r.appliedAt < r'.appliedAt) (limit : ℕ) :
    latestNames rows limit = ((rows.map Row.name).reverse).take limit := by
  have htotal : Std.Total fun r r' : Row => r'.appliedAt ≤ r.appliedAt := ⟨fun _ _ => le_total _ _⟩
  have htrans : IsTrans Row fun r r' => r'.appliedAt ≤ r.appliedAt := ⟨fun _ _ _ h h' => h'.trans h⟩
  have hreverse : rows.reverse.Pairwise fun r r' => r'.appliedAt ≤ r.appliedAt :=
    List.pairwise_reverse.mpr (h.imp fun hlt => hlt.le)
  have hdistinct : (rows.map Row.appliedAt).Nodup :=
    List.pairwise_map.mpr (h.imp fun hlt => hlt.ne)
  have hsort : rows.insertionSort (fun r r' => r'.appliedAt ≤ r.appliedAt) = rows.reverse := by
    have hperm := List.perm_insertionSort (fun r r' : Row => r'.appliedAt ≤ r.appliedAt) rows
    refine (hperm.trans (List.reverse_perm rows).symm).eq_of_pairwise ?_
      (List.pairwise_insertionSort _ rows) hreverse
    -- rows of the same time are the same row
    intro r r' hr hr' hle hle'
    exact List.inj_on_of_nodup_map hdistinct (hperm.mem_iff.mp hr) (List.mem_reverse.mp hr')
      (le_antisymm hle' hle)
  rw [latestNames, hsort, List.map_take, List.map_reverse]

/-! ## Along a run -/

/-- What is committed is sound, and what ever was, tracked. -/
structure Server.Sound (s : Server) : Prop where
  database : s.database.Sound s.clock
  history : ∀ db ∈ s.history, db.Tracked

/-- Since `s₀` the scripts of `files` have been committed, and leave `applied` in effect. -/
structure Server.Ran (dir : Directory) (s₀ : Server) (files applied : List String) (s : Server) :
    Prop where
  sound : s.Sound
  scripts : ∃ new, (∀ script ∈ new, script ∈ dir.files) ∧ new.map Script.file = files ∧
    s.database.scripts = s₀.database.scripts ++ new
  applied_eq : s.database.applied = applied
  steady : Steady s₀.answers → Steady s.answers

/-- The run goes on. -/
structure Server.Ready (dir : Directory) (s₀ : Server) (files applied : List String) (s : Server) :
    Prop extends s₀.Ran dir files applied s where
  table : s.database.HasTable
  raisedAt : s.raisedAt = none

/-- The run has thrown an exception at the database as it is; if nothing failed outside, then
for the reason `why`. -/
structure Server.Raised (s₀ : Server) (why : Prop) (s : Server) : Prop where
  raisedAt : s.raisedAt = some s.database
  why : Steady s₀.answers → why

variable {dir : Directory} {s₀ s s' : Server} {files applied : List String}

/-- One more state is committed. -/
theorem Server.Sound.of_stored {db : Database} {raised : Option Database} (h : s.Sound)
    (hs : s.Since db [db] raised s') (hdb : db.Sound s'.clock) : s'.Sound := by
  refine ⟨hs.database ▸ hdb, ?_⟩
  rw [hs.history]
  intro d hd
  rcases List.mem_append.mp hd with hd | hd
  · exact h.history d hd
  · obtain rfl := List.mem_singleton.mp hd
    exact hdb.tracked

theorem Server.Ran.of_since {raised : Option Database} (h : s₀.Ran dir files applied s)
    (hs : s.Since s.database [] raised s') : s₀.Ran dir files applied s' where
  sound := by
    refine ⟨hs.database ▸ h.sound.database.mono hs.clock, ?_⟩
    rw [hs.history, List.append_nil]
    exact h.sound.history
  scripts := hs.database ▸ h.scripts
  applied_eq := hs.database ▸ h.applied_eq
  steady := fun hsteady => hs.steady (h.steady hsteady)

theorem Server.Ready.of_since (h : s₀.Ready dir files applied s)
    (hs : s.Since s.database [] none s') : s₀.Ready dir files applied s' :=
  ⟨h.toRan.of_since hs, hs.database ▸ h.table, hs.raisedAt⟩

theorem Server.Ready.since (h : s₀.Ready dir files applied s) : s.Since s.database [] none s :=
  h.raisedAt ▸ Server.Since.start s

theorem Server.Raised.of_since {why : Prop} (h : s₀.Ran dir files applied s)
    (hs : s.Since s.database [] (some s.database) s') (hwhy : Steady s.answers → why) :
    s₀.Raised why s' :=
  ⟨hs.raisedAt.trans (congrArg some hs.database.symm), fun hsteady => hwhy (h.steady hsteady)⟩

theorem Server.Raised.mono {why why' : Prop} (h : s₀.Raised why s) (himp : why → why') :
    s₀.Raised why' s :=
  ⟨h.raisedAt, fun hsteady => himp (h.why hsteady)⟩

theorem Server.Ran.of_committed {script : Script} {trackingQuery : Statement}
    {applied' : List String} (h : s₀.Ran dir files applied s) (hscript : script ∈ dir.files)
    (hnext : ∀ now db', s.clock < now → transact script trackingQuery now s.database = some db' →
      s.database.Advances script applied' now db')
    (hs : s.Committed script trackingQuery s') :
    s₀.Ran dir (files ++ [script.file]) applied' s' ∧ s'.database.HasTable := by
  obtain ⟨now, db', hbegan, hnow, htransact, hsince⟩ := hs
  obtain ⟨hsound, htable, hscripts, happlied⟩ := hnext now db' hbegan htransact
  obtain ⟨new, hnew, hfiles, hall⟩ := h.scripts
  refine ⟨⟨h.sound.of_stored hsince (hsound.mono hnow), ⟨new ++ [script], ?_, ?_, ?_⟩, ?_, ?_⟩, ?_⟩
  · intro x hx
    rcases List.mem_append.mp hx with hx | hx
    · exact hnew x hx
    · obtain rfl := List.mem_singleton.mp hx
      exact hscript
  · rw [List.map_append, hfiles, List.map_singleton]
  · rw [hsince.database, hscripts, hall, List.append_assoc]
  · rw [hsince.database, happlied]
  · exact fun hsteady => hsince.steady (h.steady hsteady)
  · rw [hsince.database]
    exact htable

/-- A script is run: it joins the others or, at an exception, may be left out. -/
theorem ends_script {script : Script} {trackingQuery : Statement} {applied' : List String}
    (h : s₀.Ready dir files applied s) (hscript : script ∈ dir.files)
    (hnext : ∀ now db', s.clock < now → transact script trackingQuery now s.database = some db' →
      s.database.Advances script applied' now db')
    (hsome : ∀ now, transact script trackingQuery now s.database ≠ none) :
    Ends (runInTransaction script trackingQuery) s
      (fun _ s' => s₀.Ready dir (files ++ [script.file]) applied' s')
      fun _ s' => s₀.Raised False s' ∧
        (s₀.Ran dir files applied s' ∨ s₀.Ran dir (files ++ [script.file]) applied' s') := by
  refine (ends_runInTransaction h.raisedAt).mono ?_ ?_
  · rintro - s' ⟨hcommitted, hraised⟩
    obtain ⟨hran, htable⟩ := h.toRan.of_committed hscript hnext hcommitted
    exact ⟨hran, htable, hraised⟩
  · rintro e s' ⟨hraised, hrefused, houtcome⟩
    refine ⟨⟨hraised, fun hsteady => ?_⟩, ?_⟩
    · obtain ⟨now, hnone⟩ := hrefused (h.steady hsteady)
      exact hsome now hnone
    · rcases houtcome with hsince | hcommitted
      · exact .inl (h.toRan.of_since hsince)
      · exact .inr (h.toRan.of_committed hscript hnext hcommitted).1

theorem ends_readFileSync {file : String} (h : s₀.Ready dir files applied s)
    (hfile : file ∈ dir.listing) :
    Ends (readFileSync dir file) s
      (fun script s' => script ∈ dir.files ∧ script.file = file ∧ s₀.Ready dir files applied s')
      fun _ s' => s₀.Raised False s' ∧ s₀.Ran dir files applied s' := by
  rw [readFileSync]
  refine Ends.bind ((ends_call h.since).mono (fun _ _ hs => h.of_since hs.1) ?_) ?_
  · rintro e s' ⟨hs, hsteady⟩
    exact ⟨.of_since h.toRan hs hsteady, h.toRan.of_since hs⟩
  intro _ s' h'
  cases hfound : dir.files.find? fun script => script.file = file with
  | none =>
    obtain ⟨script, hscript, hname⟩ := List.mem_map.mp hfile
    exact absurd hname (by simpa using List.find?_eq_none.mp hfound script hscript)
  | some script =>
    exact ends_pure_iff.mpr
      ⟨List.mem_of_find?_eq_some hfound, by simpa using List.find?_some hfound, h'⟩

theorem ends_applyFile {name : String} (h : s₀.Ready dir files applied s)
    (hfile : name ++ ".up.sql" ∈ dir.listing) (hnew : name ∉ applied) :
    Ends (applyFile dir (name ++ ".up.sql")) s
      (fun _ s' => s₀.Ready dir (files ++ [name ++ ".up.sql"]) (applied ++ [name]) s')
      fun _ s' => s₀.Raised False s' ∧ (s₀.Ran dir files applied s' ∨
        s₀.Ran dir (files ++ [name ++ ".up.sql"]) (applied ++ [name]) s') := by
  rw [applyFile, migrationName_append]
  refine Ends.bind ((ends_readFileSync h hfile).mono (fun _ _ h => h) ?_) ?_
  · rintro e s' ⟨hraised, hran⟩
    exact ⟨hraised, .inl hran⟩
  rintro script s' ⟨hscript, hname, h'⟩
  rw [← hname]
  refine ends_script h' hscript ?_ ?_
  · intro now db' hnow hdb'
    rw [← h'.applied_eq]
    exact h'.sound.database.applies h'.table hnow hname hdb'
  · intro now
    rw [Database.transact_insertName h'.table, h'.sound.database.names_eq, h'.applied_eq,
      if_neg hnew]
    exact Option.some_ne_none _

theorem ends_revertName {name : String} {kept : List String}
    (h : s₀.Ready dir files (kept ++ [name]) s) :
    Ends (revertName dir name) s
      (fun _ s' => s₀.Ready dir (files ++ [name ++ ".down.sql"]) kept s')
      fun _ s' => s₀.Raised (name ++ ".down.sql" ∉ dir.listing) s' ∧
        (s₀.Ran dir files (kept ++ [name]) s' ∨
          s₀.Ran dir (files ++ [name ++ ".down.sql"]) kept s') := by
  rw [revertName]
  by_cases hfile : name ++ ".down.sql" ∈ dir.listing
  · rw [if_neg (not_not_intro hfile)]
    refine Ends.bind ((ends_readFileSync h hfile).mono (fun _ _ h => h) ?_) ?_
    · rintro e s' ⟨hraised, hran⟩
      exact ⟨hraised.mono False.elim, .inl hran⟩
    rintro script s' ⟨hscript, hname, h'⟩
    rw [← hname]
    refine (ends_script h' hscript ?_ ?_).mono (fun _ _ h => h)
      fun _ _ h => ⟨h.1.mono False.elim, h.2⟩
    · intro now db' hnow hdb'
      exact h'.sound.database.reverts h'.table hnow hname h'.applied_eq hdb'
    · intro now
      rw [Database.transact_deleteName h'.table]
      exact Option.some_ne_none _
  · rw [if_pos hfile]
    have hs := h.since.noteRaised
    exact ends_raise_iff.mpr ⟨.of_since h.toRan hs fun _ => hfile, .inl (h.toRan.of_since hs)⟩

/-! ## Loops -/

/-- The run has ended with an exception, after some of the items. -/
structure Server.Stopped (dir : Directory) (s₀ : Server) (items : List String)
    (files applied : List String → List String) (why : Prop) (s : Server) : Prop
    extends s₀.Raised why s where
  ran : ∃ done, done <+: items ∧ s₀.Ran dir (files done) (applied done) s

/-- A loop over items, each of which a transaction is about. -/
theorem ends_loop {items : List String} {body : String → Process PUnit}
    (files applied : List String → List String) {why : Prop}
    (hbody : ∀ done item todo s, items = done ++ item :: todo →
      s₀.Ready dir (files done) (applied done) s →
      Ends (body item) s
        (fun _ s' => s₀.Ready dir (files (done ++ [item])) (applied (done ++ [item])) s')
        fun _ s' => s₀.Raised why s' ∧ (s₀.Ran dir (files done) (applied done) s' ∨
          s₀.Ran dir (files (done ++ [item])) (applied (done ++ [item])) s'))
    (h : s₀.Ready dir (files []) (applied []) s) :
    Ends (if items.length = 0 then pure () else items.forM body) s
      (fun _ s' => s₀.Ready dir (files items) (applied items) s')
      fun _ s' => s₀.Stopped dir items files applied why s' := by
  split
  · rename_i hlength
    obtain rfl := List.eq_nil_of_length_eq_zero hlength
    exact ends_pure_iff.mpr h
  · refine ends_forM (P := fun done => s₀.Ready dir (files done) (applied done)) ?_ h
    intro done item todo s hitems hs
    refine (hbody done item todo s hitems hs).mono (fun _ _ h => h) ?_
    rintro e s' ⟨hraised, hran | hran⟩
    · exact ⟨hraised, done, ⟨item :: todo, hitems.symm⟩, hran⟩
    · exact ⟨hraised, done ++ [item], ⟨todo, by simpa using hitems.symm⟩, hran⟩

/-- A table more is no difference. -/
theorem Server.Ran.of_created {raised : Option Database} (hs : s₀.Sound)
    (h : s₀.Since s₀.database.createTable [s₀.database.createTable] raised s) :
    s₀.Ran dir [] s₀.database.applied s := by
  refine ⟨hs.of_stored h (hs.database.createTable.mono h.clock), ⟨[], by simp, rfl, ?_⟩, ?_, h.steady⟩
  · exact h.database ▸ (List.append_nil _).symm
  · rw [h.database]
    rfl

theorem ends_ensureTrackingTable (hs : s₀.Sound) (hraised : s₀.raisedAt = none) :
    Ends ensureTrackingTable s₀
      (fun _ s' => s'.database = s₀.database.createTable ∧
        s₀.Ready dir [] s₀.database.applied s')
      fun _ s' => s₀.Raised False s' ∧ s₀.Ran dir [] s₀.database.applied s' := by
  have hstart : s₀.Since s₀.database [] none s₀ := hraised ▸ Server.Since.start s₀
  have hran : s₀.Ran dir [] s₀.database.applied s₀ :=
    ⟨hs, ⟨[], by simp, rfl, (List.append_nil _).symm⟩, rfl, id⟩
  refine Ends.mono (ends_poolQuery hstart _) ?_ ?_
  · rintro - s' ⟨db', hdb', h⟩
    obtain rfl := Option.some.inj hdb'
    exact ⟨h.database, .of_created hs h, h.database ▸ rfl, h.raisedAt⟩
  · rintro e s' (⟨h, hsteady⟩ | ⟨db', hdb', h, hsteady⟩)
    · exact ⟨.of_since hran h fun hst => (by cases hsteady hst), hran.of_since h⟩
    · obtain rfl := Option.some.inj hdb'
      exact ⟨⟨h.raisedAt.trans (congrArg some h.database.symm), hsteady⟩, .of_created hs h⟩

theorem ends_selectRows (h : s₀.Ready dir files applied s) :
    Ends selectRows s
      (fun rows s' => rows = s.database.rows ∧ s₀.Ready dir files applied s')
      fun _ s' => s₀.Raised False s' ∧ s₀.Ran dir files applied s' := by
  rw [selectRows]
  refine Ends.bind ((ends_call h.since).mono (fun _ _ hs => hs.1) ?_) ?_
  · rintro e s' ⟨hs, hsteady⟩
    exact ⟨.of_since h.toRan hs hsteady, h.toRan.of_since hs⟩
  rintro - s' hs
  have h' := h.of_since hs
  rw [ends_bind_iff, ends_get_iff, h'.table]
  exact ends_pure_iff.mpr ⟨by rw [hs.database], h'⟩

/-! ## The two commands -/

theorem Server.Stopped.of_none {items : List String} {files applied : List String → List String}
    {why : Prop} (hraised : s₀.Raised False s) (hran : s₀.Ran dir (files []) (applied []) s) :
    s₀.Stopped dir items files applied why s :=
  ⟨hraised.mono False.elim, [], List.nil_prefix, hran⟩

/-- A command goes on with the rows, or has stopped before it did anything. -/
theorem ends_command {items : List String} {files applied : List String → List String} {why : Prop}
    {go : List Row → Process PUnit} {Q : PUnit → Server → Prop} (hs : s₀.Sound)
    (hraised : s₀.raisedAt = none) (hfiles : files [] = [])
    (happlied : applied [] = s₀.database.applied)
    (hgo : ∀ s, s₀.Ready dir (files []) (applied []) s →
      Ends (go s₀.database.rows) s Q fun _ s' => s₀.Stopped dir items files applied why s') :
    Ends (ensureTrackingTable >>= fun _ => selectRows >>= go) s₀ Q
      fun _ s' => s₀.Stopped dir items files applied why s' := by
  have hstopped : ∀ (e : MigrateError) s',
      s₀.Raised False s' ∧ s₀.Ran dir [] s₀.database.applied s' →
      s₀.Stopped dir items files applied why s' := by
    rintro e s' ⟨hraised, hran⟩
    exact .of_none hraised (by rwa [hfiles, happlied])
  refine Ends.bind ((ends_ensureTrackingTable hs hraised).mono (fun _ _ h => h) hstopped) ?_
  rintro - s₁ ⟨hcreated, h₁⟩
  refine Ends.bind ((ends_selectRows h₁).mono (fun _ _ h => h) hstopped) ?_
  rintro rows s₂ ⟨rfl, h₂⟩
  rw [hcreated]
  exact hgo s₂ (by rwa [hfiles, happlied])

/-- However `up` ends, the first of the pending files have been applied. -/
theorem ends_up (hs : s₀.Sound) (hraised : s₀.raisedAt = none) :
    Ends (up dir) s₀
      (fun _ s' => s₀.Ready dir (pendingUpFiles dir.listing s₀.database.applied)
        (s₀.database.applied ++
          (pendingUpFiles dir.listing s₀.database.applied).map migrationName) s')
      fun _ s' => s₀.Stopped dir (pendingUpFiles dir.listing s₀.database.applied) id
        (fun done => s₀.database.applied ++ done.map migrationName) False s' := by
  have hnames : s₀.database.rows.map Row.name = s₀.database.applied := hs.database.names_eq
  refine ends_command hs hraised rfl (List.append_nil _) ?_
  intro s₁ h₁
  rw [readdirSync, hnames, ends_bind_iff]
  refine Ends.bind ((ends_call h₁.since).mono (fun _ _ hs => h₁.of_since hs.1) ?_) ?_
  · rintro e s' ⟨hs', hsteady⟩
    exact .of_none (.of_since h₁.toRan hs' hsteady) (h₁.toRan.of_since hs')
  intro _ s₂ h₂
  refine ends_pure_iff.mpr (ends_loop id
    (fun done => s₀.database.applied ++ done.map migrationName) ?_ h₂)
  intro done file todo s hitems hready
  have hpending : file ∈ pendingUpFiles dir.listing s₀.database.applied := by
    rw [hitems]
    exact List.mem_append_right _ List.mem_cons_self
  obtain ⟨hfile, name, rfl, hnew⟩ := (mem_pendingUpFiles_iff _ _ _).mp hpending
  -- no other pending file is of the same migration
  have hother : name ∉ done.map migrationName := by
    have hdistinct := nodup_pendingUpFiles dir.distinct s₀.database.applied
    rw [← Directory.listing, hitems, List.map_append, List.map_cons, migrationName_append] at hdistinct
    exact fun h => (List.nodup_append.mp hdistinct).2.2 name h name List.mem_cons_self rfl
  have happlied : name ∉ s₀.database.applied ++ done.map migrationName := by
    rw [List.mem_append]
    exact not_or.mpr ⟨hnew, hother⟩
  have hbody := ends_applyFile hready hfile happlied
  simpa [migrationName_append] using hbody

theorem take_of_reverse_eq {α : Type} {l done rest : List α} (h : l.reverse = done ++ rest) :
    l.take (l.length - done.length) = rest.reverse := by
  have hl : l = rest.reverse ++ done.reverse := by
    rw [← List.reverse_append, ← h, List.reverse_reverse]
  rw [hl, List.length_append, List.length_reverse, List.length_reverse, Nat.add_sub_cancel]
  exact List.take_left' List.length_reverse

/-- However `down` ends, the first of the latest migrations have been reverted. -/
theorem ends_down (hs : s₀.Sound) (hraised : s₀.raisedAt = none) (steps : ℕ) :
    Ends (down dir steps) s₀
      (fun _ s' => s₀.Ready dir
        ((s₀.database.applied.reverse.take steps).map fun name => name ++ ".down.sql")
        (s₀.database.applied.take (s₀.database.applied.length -
          (s₀.database.applied.reverse.take steps).length)) s')
      fun _ s' => s₀.Stopped dir (s₀.database.applied.reverse.take steps)
        (fun done => done.map fun name => name ++ ".down.sql")
        (fun done => s₀.database.applied.take (s₀.database.applied.length - done.length))
        (∃ name ∈ s₀.database.applied.reverse.take steps,
          name ++ ".down.sql" ∉ dir.listing) s' := by
  have hnames : s₀.database.rows.map Row.name = s₀.database.applied := hs.database.names_eq
  refine ends_command hs hraised rfl (List.take_of_length_le le_rfl) ?_
  intro s₁ h₁
  rw [latestNames_eq hs.database.increasing, hnames]
  refine ends_loop (fun done => done.map fun name => name ++ ".down.sql")
    (fun done => s₀.database.applied.take (s₀.database.applied.length - done.length)) ?_ h₁
  intro done name todo s hitems hready
  -- what is left of the migrations once those of `done` are reverted, and then `name`
  obtain ⟨rest, hrest⟩ : ∃ rest, s₀.database.applied.reverse = done ++ name :: rest :=
    ⟨todo ++ s₀.database.applied.reverse.drop steps, by
      rw [← List.cons_append, ← List.append_assoc, ← hitems, List.take_append_drop]⟩
  have hrest' : s₀.database.applied.reverse = (done ++ [name]) ++ rest := by
    rw [hrest, List.append_assoc, List.singleton_append]
  rw [take_of_reverse_eq hrest, List.reverse_cons] at hready ⊢
  rw [take_of_reverse_eq hrest', List.map_append, List.map_singleton]
  refine (ends_revertName hready).mono (fun _ _ h => h) ?_
  rintro e s' ⟨hraised', hran⟩
  refine ⟨hraised'.mono fun hmissing => ⟨name, ?_, hmissing⟩, hran⟩
  rw [hitems]
  exact List.mem_append_right _ List.mem_cons_self

/-! ## Histories of runs -/

structure World.Sound (w : World) : Prop where
  database : w.database.Sound w.clock
  history : ∀ db ∈ w.history, db.Tracked

theorem World.sound_fresh : World.fresh.Sound := by
  refine ⟨Database.sound_fresh _, ?_⟩
  intro db hdb
  obtain rfl := List.mem_singleton.mp hdb
  exact (Database.sound_fresh 0).tracked

theorem World.Sound.connect {w : World} (h : w.Sound) (answers : ℕ → Answer) :
    (w.connect answers).Sound := ⟨h.database, h.history⟩

theorem Server.Sound.world (h : s.Sound) : s.world.Sound := ⟨h.database, h.history⟩

/-- Nothing happens to the database after the first exception, which ends the run. -/
structure Ended.StopsAtFailure (e : Ended) : Prop where
  error_iff : e.error = none ↔ e.server.raisedAt = none
  kept : ∀ db, e.server.raisedAt = some db → e.server.database = db

/-- The scripts of `files`, each as a whole and no others, were run in this order. -/
def Ended.RanFiles (dir : Directory) (files : List String) (w : World) (e : Ended) : Prop :=
  ∃ new, (∀ script ∈ new, script ∈ dir.files) ∧ new.map Script.file = files ∧
    e.server.database.scripts = w.database.scripts ++ new

def World.pending (w : World) (dir : Directory) : List String :=
  pendingUpFiles dir.listing w.database.applied

/-- What `up` is to do: the pending migrations are applied, in the order of their files, up to
the first failure. -/
structure AppliesPending (dir : Directory) (answers : ℕ → Answer) (w : World) (e : Ended) :
    Prop where
  pending_iff : ∀ file, file ∈ w.pending dir ↔
    file ∈ dir.listing ∧ ∃ name, file = name ++ ".up.sql" ∧ ¬UndoLog.InEffect w.database.log name
  files_in_order : (w.pending dir).Pairwise Precedes
  names_in_order : (∀ file ∈ w.pending dir, Plain (migrationName file)) →
    ((w.pending dir).map migrationName).Pairwise Precedes
  applies : ∃ files, files <+: w.pending dir ∧ e.RanFiles dir files w ∧
    e.server.database.applied = w.database.applied ++ files.map migrationName ∧
    (e.error = none → files = w.pending dir)
  stops : e.StopsAtFailure
  succeeds : Steady answers → e.error = none

def World.latest (w : World) (steps : ℕ) : List String := w.database.applied.reverse.take steps

/-- What `down` is to do: the migrations applied last are reverted, the last one first, up to
the first failure or the first without a file for it. -/
structure RevertsLatest (dir : Directory) (steps : ℕ) (answers : ℕ → Answer) (w : World)
    (e : Ended) : Prop where
  reverts : ∃ names, names <+: w.latest steps ∧
    e.RanFiles dir (names.map fun name => name ++ ".down.sql") w ∧
    w.database.applied = e.server.database.applied ++ names.reverse ∧
    (e.error = none → names = w.latest steps)
  stops : e.StopsAtFailure
  succeeds : Steady answers →
    e.error = none ∨ ∃ name ∈ w.latest steps, name ++ ".down.sql" ∉ dir.listing

/-- A run ends as its program does. -/
theorem World.run_cases {w : World} {r : Run} {Q : PUnit → Server → Prop}
    {E : MigrateError → Server → Prop} (h : Ends r.program (w.connect r.answers) Q E) :
    ((w.run r).error = none ∧ Q PUnit.unit (w.run r).server) ∨
      ∃ e, (w.run r).error = some e ∧ E e (w.run r).server := by
  rw [Ends] at h
  rw [World.run]
  cases hrun : r.program (w.connect r.answers) with
  | ok a s =>
    rw [hrun] at h
    exact .inl ⟨rfl, h⟩
  | error e s =>
    rw [hrun] at h
    exact .inr ⟨e, rfl, h⟩

theorem Ended.StopsAtFailure.of_ready {e : Ended} (h : e.error = none)
    (hready : s₀.Ready dir files applied e.server) : e.StopsAtFailure :=
  ⟨iff_of_true h hready.raisedAt, fun db hdb => by rw [hready.raisedAt] at hdb; cases hdb⟩

theorem Ended.StopsAtFailure.of_raised {e : Ended} {err : MigrateError} {why : Prop}
    (h : e.error = some err) (hraised : s₀.Raised why e.server) : e.StopsAtFailure := by
  refine ⟨iff_of_false (by rw [h]; exact Option.some_ne_none _) ?_, fun db hdb => ?_⟩
  · rw [hraised.raisedAt]
    exact Option.some_ne_none _
  · rw [hraised.raisedAt] at hdb
    exact Option.some.inj hdb

theorem World.Sound.run_up {w : World} (h : w.Sound) (dir : Directory) (answers : ℕ → Answer) :
    (w.run ⟨dir, .up, answers⟩).server.Sound ∧
      AppliesPending dir answers w (w.run ⟨dir, .up, answers⟩) := by
  have hpending : ∀ file, file ∈ w.pending dir ↔ file ∈ dir.listing ∧
      ∃ name, file = name ++ ".up.sql" ∧ ¬UndoLog.InEffect w.database.log name := by
    intro file
    simp only [← UndoLog.mem_applied_iff]
    exact mem_pendingUpFiles_iff _ _ _
  have hends : Ends (Run.program ⟨dir, .up, answers⟩) (w.connect answers) _ _ :=
    ends_up (h.connect answers) rfl
  rcases World.run_cases hends with ⟨hok, hready⟩ | ⟨e, herror, hstopped⟩
  · exact ⟨hready.sound, hpending, pairwise_pendingUpFiles _ _, pairwise_pending_names,
      ⟨_, List.prefix_rfl, hready.scripts, hready.applied_eq, fun _ => rfl⟩, .of_ready hok hready,
      fun _ => hok⟩
  · obtain ⟨done, hdone, hran⟩ := hstopped.ran
    have hnot : (w.run ⟨dir, .up, answers⟩).error ≠ none :=
      Option.ne_none_iff_exists'.mpr ⟨e, herror⟩
    exact ⟨hran.sound, hpending, pairwise_pendingUpFiles _ _, pairwise_pending_names,
      ⟨done, hdone, hran.scripts, hran.applied_eq, fun h => absurd h hnot⟩,
      .of_raised herror hstopped.toRaised, fun hsteady => (hstopped.why hsteady).elim⟩

/-- The first of the latest are the last ones of all. -/
theorem applied_eq_of_prefix_latest {w : World} {names : List String} {steps : ℕ}
    (h : names <+: w.latest steps) : w.database.applied =
      w.database.applied.take (w.database.applied.length - names.length) ++ names.reverse := by
  obtain ⟨rest, hrest⟩ := h.trans (List.take_prefix _ _)
  rw [take_of_reverse_eq hrest.symm, ← List.reverse_append, hrest, List.reverse_reverse]

theorem World.Sound.run_down {w : World} (h : w.Sound) (dir : Directory) (steps : ℕ)
    (answers : ℕ → Answer) :
    (w.run ⟨dir, .down steps, answers⟩).server.Sound ∧
      RevertsLatest dir steps answers w (w.run ⟨dir, .down steps, answers⟩) := by
  have hends : Ends (Run.program ⟨dir, .down steps, answers⟩) (w.connect answers) _ _ :=
    ends_down (h.connect answers) rfl steps
  rcases World.run_cases hends with ⟨hok, hready⟩ | ⟨e, herror, hstopped⟩
  · refine ⟨hready.sound, ⟨w.latest steps, List.prefix_rfl, hready.scripts, ?_, fun _ => rfl⟩,
      .of_ready hok hready, fun _ => .inl hok⟩
    rw [hready.applied_eq]
    exact applied_eq_of_prefix_latest List.prefix_rfl
  · obtain ⟨done, hdone, hran⟩ := hstopped.ran
    have hnot : (w.run ⟨dir, .down steps, answers⟩).error ≠ none :=
      Option.ne_none_iff_exists'.mpr ⟨e, herror⟩
    refine ⟨hran.sound, ⟨done, hdone, hran.scripts, ?_, fun h => absurd h hnot⟩,
      .of_raised herror hstopped.toRaised, fun hsteady => .inr (hstopped.why hsteady)⟩
    rw [hran.applied_eq]
    exact applied_eq_of_prefix_latest hdone

theorem World.sound_of_step {w w' : World} {r : Run} (h : w.Sound) (hs : step w r = some w') :
    w'.Sound := by
  obtain rfl := Option.some.inj hs
  obtain ⟨dir, command, answers⟩ := r
  cases command with
  | up => exact (h.run_up dir answers).1.world
  | down steps => exact (h.run_down dir steps answers).1.world

/-- After any history of runs, on directories that may differ from one run to the next, the
database is tracked, as it was whenever something was committed, and `up` and `down` do what
they are to do. -/
theorem migrations_tracked {w : World} (h : Reaches step (fun _ => True) World.fresh w) :
    w.database.Tracked ∧ (∀ db ∈ w.history, db.Tracked) ∧
    (∀ dir answers, AppliesPending dir answers w (w.run ⟨dir, .up, answers⟩)) ∧
    ∀ dir steps answers, RevertsLatest dir steps answers w (w.run ⟨dir, .down steps, answers⟩) := by
  have hsound : w.Sound := h.invariant World.sound_fresh fun _ _ _ _ hs hstep =>
    World.sound_of_step hs hstep
  exact ⟨hsound.database.tracked, hsound.history, fun dir answers => (hsound.run_up dir answers).2,
    fun dir steps answers => (hsound.run_down dir steps answers).2⟩

def allDone : ℕ → Answer := fun _ => ⟨.done, 0⟩

def exampleDirectory : Directory where
  path := "db/migrations"
  files := [⟨"002_links.up.sql", "CREATE TABLE links ()"⟩, ⟨"002_links.down.sql", "DROP TABLE links"⟩]
  distinct := by decide

/-- A file with a lower number is added later. -/
def exampleLater : Directory where
  path := "db/migrations"
  files := exampleDirectory.files ++ [⟨"001_merchants.up.sql", "CREATE TABLE merchants ()"⟩]
  distinct := by decide

def exampleRuns : List Run :=
  [⟨exampleDirectory, .up, allDone⟩, ⟨exampleLater, .up, allDone⟩]

/-- The file that came later is the first to be reverted. -/
theorem migrations_tracked_example : ∃ w, exec step World.fresh exampleRuns = some w ∧
    w.latest 2 = ["001_merchants", "002_links"] ∧ ∀ db ∈ w.history, db.Tracked := by
  refine ⟨_, rfl, by decide, ?_⟩
  exact (migrations_tracked (Reaches.of_exec (fun _ _ => trivial)
    (rfl : exec step World.fresh exampleRuns = _))).2.1

/-- One migration's name goes on where the other's ends, with a character below the dot. -/
def exampleExtended : Directory where
  path := "db/migrations"
  files := [⟨"018_fees.up.sql", "ALTER TABLE fees"⟩, ⟨"018_fees-index.up.sql", "CREATE INDEX"⟩]
  distinct := by decide

/-- `up` does not apply the pending migrations in the order of their names: files are compared
with their suffix. -/
theorem up_not_in_name_order :
    (World.fresh.run ⟨exampleExtended, .up, allDone⟩).error = none ∧
    (World.fresh.run ⟨exampleExtended, .up, allDone⟩).server.database.applied =
      ["018_fees-index", "018_fees"] ∧
    Precedes "018_fees" "018_fees-index" ∧ ¬Precedes "018_fees-index" "018_fees" := by
  refine ⟨by decide, by decide, by decide, by decide⟩

end KonfirmBackend.Migrate
