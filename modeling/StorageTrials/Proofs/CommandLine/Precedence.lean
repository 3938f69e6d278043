import Mathlib.Data.List.Nodup
import StorageTrials.Proofs.CommandLine.Drafts

namespace StorageTrials

open StorageTrials.Text

variable {env : Environment} {d d' : Defaults} {p q : Parameter} {ws : List String}
  {c : CommandLine} {k : String} {e : Toml.Value} {entries : List (String × Toml.Value)}

namespace Parameter

def defaultsKey? : Parameter → Option String
  | server => some "server"
  | port => some "port"
  | db => some "db"
  | collection => some "collprefix"
  | loopCount => some "loopcnt"
  | timeout => some "timeout"
  | sourceDir => some "srcdir"
  | destinationDir => some "destdir"
  | _ => none

theorem name_eq_of_defaultsKey? (h : p.defaultsKey? = some k) : p.name = k := by
  cases p with
  | mode | files | outfile | summary | defaults => exact nomatch h
  | _ => exact Option.some.inj h

theorem defaultsKey?_injective (h : p.defaultsKey? = some k) (h' : q.defaultsKey? = some k) :
    p = q :=
  name_injective ((name_eq_of_defaultsKey? h).trans (name_eq_of_defaultsKey? h').symm)

def ofToml? : Parameter → Toml.Value → Option Value
  | server, .string s | db, .string s | collection, .string s | sourceDir, .string s
  | destinationDir, .string s => some (.text (String.ofList s))
  | port, .integer n => (Defaults.word? 16 n).map .number
  | loopCount, .integer n => (Defaults.word? 32 n).map .number
  | timeout, .string s => (Duration.read (String.ofList s)).toOption.map .span
  | _, _ => none

/-- What a defaults file has for a parameter. -/
def inFile? (p : Parameter) (entries : List (String × Toml.Value)) : Option Toml.Value :=
  p.defaultsKey?.bind fun k => entries.lookup k

theorem inFile?_cons (p : Parameter) (entry : String × Toml.Value) :
    p.inFile? (entry :: entries) =
      if p.defaultsKey? = some entry.1 then some entry.2 else p.inFile? entries := by
  obtain ⟨k', e⟩ := entry
  cases hk : p.defaultsKey? with
  | none => simp [inFile?, hk]
  | some k =>
    by_cases h : k = k'
    · simp [inFile?, hk, h]
    · simp [inFile?, hk, h, List.lookup_cons, beq_eq_false_iff_ne.mpr h]

theorem inFile?_eq_none (h : p.defaultsKey? = some k) (hk : k ∉ entries.map (·.1)) :
    p.inFile? entries = none := by
  rw [inFile?, h, Option.bind_some, List.lookup_eq_none_iff]
  exact fun entry he => bne_iff_ne.mpr fun e => hk (e ▸ List.mem_map_of_mem he)

def builtIn? : Parameter → Option Value
  | sourceDir => some (.text defaultSourceDir)
  | loopCount => some (.number defaultLoopCount)
  | _ => none

/-- The value by the first source that has something for a parameter, be it a value or not: the
command line, the environment, the defaults file, what is built in. -/
def decided? (p : Parameter) (ws : List String) (env : Environment)
    (entries : List (String × Toml.Value)) : Option (Option Value) :=
  ((CommandLine.given p ws).head?.map p.read?).or <|
    ((p.environment? env).map p.read?).or <|
      ((p.inFile? entries).map p.ofToml?).or (p.builtIn?.map some)

end Parameter

def Settings.value? (s : Settings) : Parameter → Option Parameter.Value
  | .mode => some (.mode s.mode)
  | .sourceDir => some (.text s.sourceDir)
  | .destinationDir => s.destinationDir.map .text
  | .server => s.connection.server.map .text
  | .port => s.connection.port.map .number
  | .db => s.connection.db.map .text
  | .collection => s.connection.collection.map .text
  | .loopCount => some (.number s.loopCount)
  | .outfile => s.outfile.map .text
  | .timeout => s.timeout.map .span
  | .summary => s.summaryPath.map .text
  | .files | .defaults => none

namespace Defaults

def reading? (d : Defaults) : Parameter → Option (Option Parameter.Value)
  | .server => d.server.map fun s => some (.text s)
  | .port => d.port.map fun n => some (.number n)
  | .db => d.db.map fun s => some (.text s)
  | .collection => d.collection.map fun s => some (.text s)
  | .loopCount => d.loopCount.map fun n => some (.number n)
  | .timeout => d.timeout.map fun t => (Duration.read t).toOption.map .span
  | .sourceDir => d.sourceDir.map fun s => some (.text s)
  | .destinationDir => d.destinationDir.map fun s => some (.text s)
  | _ => none

theorem reading?_set? {entry : String × Toml.Value} (h : d.set? entry = some d') :
    ∃ q : Parameter, q.defaultsKey? = some entry.1 ∧
      ∀ p, d'.reading? p = if p = q then some (q.ofToml? entry.2) else d.reading? p := by
  unfold set? at h
  split at h
  case h_1 => exact Option.some.inj h ▸ ⟨.server, rfl, fun p => by cases p <;> rfl⟩
  case h_2 =>
    obtain ⟨n, hn, rfl⟩ := Option.map_eq_some_iff.mp h
    exact ⟨.port, rfl, fun p => by cases p <;> simp [reading?, Parameter.ofToml?, hn]⟩
  case h_3 => exact Option.some.inj h ▸ ⟨.db, rfl, fun p => by cases p <;> rfl⟩
  case h_4 => exact Option.some.inj h ▸ ⟨.collection, rfl, fun p => by cases p <;> rfl⟩
  case h_5 =>
    obtain ⟨n, hn, rfl⟩ := Option.map_eq_some_iff.mp h
    exact ⟨.loopCount, rfl, fun p => by cases p <;> simp [reading?, Parameter.ofToml?, hn]⟩
  case h_6 => exact Option.some.inj h ▸ ⟨.timeout, rfl, fun p => by cases p <;> rfl⟩
  case h_7 => exact Option.some.inj h ▸ ⟨.sourceDir, rfl, fun p => by cases p <;> rfl⟩
  case h_8 => exact Option.some.inj h ▸ ⟨.destinationDir, rfl, fun p => by cases p <;> rfl⟩
  case h_9 => exact nomatch h

theorem reading?_foldlM (hnodup : (entries.map (·.1)).Nodup)
    (h : entries.foldlM set? d = some d') (p : Parameter) :
    d'.reading? p = ((p.inFile? entries).map p.ofToml?).or (d.reading? p) := by
  induction entries generalizing d with
  | nil =>
    obtain rfl := Option.some.inj h
    simp [Parameter.inFile?]
  | cons entry entries ih =>
    obtain ⟨d₁, hset, hrest⟩ := Option.bind_eq_some_iff.mp h
    obtain ⟨q, hq, hread⟩ := reading?_set? hset
    obtain ⟨hnew, hnodup⟩ := List.nodup_cons.mp hnodup
    rw [ih hnodup hrest, hread p, Parameter.inFile?_cons]
    by_cases hp : p = q
    · -- no later entry has the key again
      subst hp
      simp [Parameter.inFile?_eq_none hq hnew, hq]
    · have hne : p.defaultsKey? ≠ some entry.1 := fun h =>
        hp (Parameter.defaultsKey?_injective h hq)
      simp [hp, hne]

theorem nodup_of_read? {text : String} (h : Toml.read? text = some entries) :
    (entries.map (·.1)).Nodup := by
  obtain ⟨pairs, -, h⟩ := Option.bind_eq_some_iff.mp h
  obtain ⟨hnodup, h⟩ := Option.ite_none_right_eq_some.mp h
  exact Option.some.inj h ▸ hnodup

theorem parse_eq_ok {text : String} (h : parse text = .ok d) :
    ∃ entries timeout, Toml.read? text = some entries ∧ d.timeoutSpan = .ok timeout ∧
      ∀ p, d.reading? p = (p.inFile? entries).map p.ofToml? := by
  unfold parse at h
  split at h
  case h_1 => exact nomatch h
  case h_2 d₁ hd =>
    obtain ⟨timeout, htimeout, h⟩ := exists_of_bind_eq_ok h
    obtain rfl := Except.ok.inj h
    obtain ⟨entries, hread, hentries⟩ := Option.bind_eq_some_iff.mp hd
    refine ⟨entries, timeout, hread, htimeout, fun p => ?_⟩
    rw [reading?_foldlM (nodup_of_read? hread) hentries p]
    cases p <;> simp [empty, reading?]

end Defaults

theorem readTimeout_eq_ok {text : String} {t : Duration} (h : readTimeout text = .ok t) :
    Duration.read text = .ok t := by
  unfold readTimeout at h
  split at h
  case h_1 u hu => rw [hu, Except.ok.inj h]
  case h_2 => exact nomatch h
  case h_3 => exact nomatch h

namespace CommandLine

theorem timeoutWith_eq_ok (c : CommandLine) {timeout : Option Duration}
    (h : d.timeoutSpan = .ok timeout) :
    ∃ t, c.timeoutWith d = .ok t ∧
      t.map (some ∘ .span) = (c.timeout.map (some ∘ .span)).or (d.reading? .timeout) := by
  rw [timeoutWith]
  cases hc : c.timeout with
  | some t => exact ⟨some t, rfl, rfl⟩
  | none =>
    refine ⟨timeout, h, ?_⟩
    rw [Defaults.timeoutSpan] at h
    cases ht : d.timeout with
    | none =>
      rw [ht] at h
      obtain rfl := Except.ok.inj h
      simp [Defaults.reading?, ht]
    | some text =>
      rw [ht] at h
      obtain ⟨t, hread, rfl⟩ := exists_of_map_eq_ok h
      simp [Defaults.reading?, ht, readTimeout_eq_ok hread, Except.toOption]

theorem settings_eq_ok (c : CommandLine) {timeout : Option Duration}
    (h : d.timeoutSpan = .ok timeout) :
    ∃ s, c.settings d = .ok s ∧ s.files = c.fileNames ∧ s.verbose = c.verbose ∧
      ∀ p, p ≠ .files → p ≠ .defaults → (s.value? p).map some =
        ((c.value? p).map some).or ((d.reading? p).or (p.builtIn?.map some)) := by
  obtain ⟨t, ht, hvalue⟩ := c.timeoutWith_eq_ok h
  refine ⟨_, by rw [settings, ht]; rfl, rfl, rfl, fun p hfiles hdefaults => ?_⟩
  cases p with
  | files => exact absurd rfl hfiles
  | defaults => exact absurd rfl hdefaults
  | mode | outfile | summary =>
    simp [Settings.value?, CommandLine.value?, Choices.value?, Defaults.reading?,
      Parameter.builtIn?]
  | destinationDir | server | port | db | collection =>
    simp [Settings.value?, CommandLine.value?, Choices.value?, Defaults.reading?,
      Parameter.builtIn?, ConnectionOptions.orElse, Defaults.connection, Option.map_or,
      Function.comp_def]
  | sourceDir =>
    simp only [Settings.value?, CommandLine.value?, Choices.value?, Defaults.reading?,
      Parameter.builtIn?]
    cases c.sourceDir <;> cases d.sourceDir <;> rfl
  | loopCount =>
    simp only [Settings.value?, CommandLine.value?, Choices.value?, Defaults.reading?,
      Parameter.builtIn?]
    cases c.loopCount <;> cases d.loopCount <;> rfl
  | timeout =>
    have hbuilt : Parameter.timeout.builtIn? = none := rfl
    rw [hbuilt, Option.map_none, Option.or_none, Settings.value?, Option.map_map, hvalue]
    simp [CommandLine.value?, Choices.value?]

end CommandLine

/-- The command line wins over the environment, the environment over the defaults file, and that
over what is built in, also where the value that wins is not one that can be used. -/
theorem settings_decided {text : String} (hc : CommandLine.read env ws = .ok c)
    (hd : Defaults.parse text = .ok d) :
    ∃ s entries, c.settings d = .ok s ∧ Toml.read? text = some entries ∧
      (∀ p, p ≠ .files → p ≠ .defaults →
        (CommandLine.given p ws).length ≤ 1 ∧
        (s.value? p).map some = p.decided? ws env entries) ∧
      s.files = (((CommandLine.given .files ws).flatMap Draft.readFiles).map trim).filter (· ≠ "") ∧
      s.verbose = ws.any CommandLine.isVerbose := by
  obtain ⟨entries, timeout, hread, htimeout, hentries⟩ := Defaults.parse_eq_ok hd
  obtain ⟨s, hs, hfiles, hverbose, hvalue⟩ := c.settings_eq_ok htimeout
  have hline := says_of_read hc
  refine ⟨s, entries, hs, hread, fun p hp hp' => ⟨hline.once p hp, ?_⟩, ?_, ?_⟩
  · rw [hvalue p hp hp', hline.values p hp, hentries p, Option.or_assoc]
    rfl
  · rw [hfiles, CommandLine.fileNames, hline.files]
  · rw [hverbose, hline.verbose]

theorem settings_decided_unusable :
    ∃ c d s,
      CommandLine.read [("GRIDBENCH_PORT", "0"), ("GRIDBENCH_DB", "unused")]
          ["--db= ", "--files", "a", "--loopcnt=0", "--run", "direct"] = .ok c ∧
        Defaults.parse "db = \"perf\"\nport = 1\nloopcnt = 7\ntimeout = \"5s\"" = .ok d ∧
        c.settings d = .ok s ∧
        (s.value? .db).map some = some (some (.text " ")) ∧
        (s.value? .port).map some = some (some (.number 0)) ∧
        (s.value? .loopCount).map some = some (some (.number 0)) ∧
        (s.value? .timeout).map some = some (some (.span ⟨5000000000, by decide⟩)) ∧
        (s.value? .server).map some = none := by
  have hc : CommandLine.read [("GRIDBENCH_PORT", "0"), ("GRIDBENCH_DB", "unused")]
      ["--db= ", "--files", "a", "--loopcnt=0", "--run", "direct"] =
        .ok { Choices.none with
          mode := .direct, files := ["a"], connection := ⟨none, some 0, some " ", none⟩,
          loopCount := some 0 } := rfl
  have hd : Defaults.parse "db = \"perf\"\nport = 1\nloopcnt = 7\ntimeout = \"5s\"" =
      .ok { Defaults.empty with
        db := some "perf", port := some 1, loopCount := some 7, timeout := some "5s" } := rfl
  obtain ⟨s, entries, hs, hread, hvalues, -⟩ := settings_decided hc hd
  obtain rfl := Option.some.inj hread
  exact ⟨_, _, s, hc, hd, hs, (hvalues .db (by decide) (by decide)).2,
    (hvalues .port (by decide) (by decide)).2, (hvalues .loopCount (by decide) (by decide)).2,
    (hvalues .timeout (by decide) (by decide)).2, (hvalues .server (by decide) (by decide)).2⟩

end StorageTrials
