import Chiptune.Proofs.Programs
import Chiptune.Proofs.StoredFiles

/-!
# What a run leaves behind

A run that reports success has stored the exported data and the samples, and a run that refuses its
input has touched no file. An error that the program does not handle can come after one or both of
the files were written, and one file written over the other is not noticed.
-/

namespace Chiptune.CommandLine

open Text (Points)

/-- What a run exports, and the files that it is meant for. A text without an encoding has no
data. -/
structure Exported where
  path : Points
  data : Option Bytes
  samplePath : Points
  samples : Option Bytes

namespace Settings

/-- The numbers that are set. -/
def numbers? (settings : Settings) : Option Numbers := do
  let rowsPerBeat ← settings.rowsPerBeat
  let patternLength ← settings.patternLength
  let speed ← settings.speed
  let tempo ← settings.tempo.mapM id
  let channels ← settings.channels
  let capacity ← settings.capacity
  return { rowsPerBeat, patternLength, speed, tempo, channels, capacity }

/-- The instrument map that is asked for, or the one without entries. -/
def map (settings : Settings) (tree : FileTree) : Outcome InstrumentMap :=
  match settings.instrumentMap with
  | some path => InstrumentMap.load tree path
  | none => pure {}

/-- The linked bytes or the text with the warnings in front of it, and the samples. -/
def encoded (settings : Settings) (options : Export.Options) (project : Project)
    (warnings : List Arrangement.Warning) : Outcome (Option Bytes × Option Bytes) :=
  if settings.binary then do
    let (bytes, samples) ←
      Export.link project options settings.songOffset settings.sampleOffset
    return (some bytes, samples)
  else do
    let some dialect := settings.dialect | throw .noChoice
    let document ← Export.document project options
    let text := annotated warnings (document.text dialect)
    return (if isEncodable settings warnings then some text.toUTF8.data.toList else none,
      document.samples)

/-- The data of a run as a function of the files before it. -/
def exported (settings : Settings) (tree : FileTree) : Outcome Exported := do
  let some numbers := settings.numbers? | throw .wrongKind
  let map ← settings.map tree
  let (project, warnings) ←
    Arrangement.ofFile tree settings.input (settings.arrangement numbers) map
  let some kernel := settings.kernel | throw .noChoice
  let some path := settings.output | throw .wrongKind
  let options : Export.Options := { kernel, capacity := numbers.capacity }
  let (data, samples) ← settings.encoded options project warnings
  let samplePath := settings.sampleOutput.getD (Export.samplePath tree project path)
  return { path, data, samplePath, samples }

end Settings

/-- The samples are in their file, the data is in the output unless the samples were written over
it, and nothing else is changed. -/
structure Exported.Stored (exported : Exported) (data : Bytes) (before after : FileTree) :
    Prop where
  samples : ∀ samples, exported.samples = some samples →
    after.read exported.samplePath = .ok samples
  data : (exported.samples.isSome →
      before.locate exported.samplePath ≠ before.locate exported.path) →
    after.read exported.path = .ok data
  others : ∀ place, before.locate exported.path ≠ .ok place →
    (exported.samples.isSome → before.locate exported.samplePath ≠ .ok place) →
    after.node? place = before.node? place

/-- How an error can end a run that has written to a file, of which it leaves `after`. -/
inductive Exported.CutShort (exported : Exported) (console : Console) (before after : FileTree)
    (printed : List Points) (error : Error) : Prop
  /-- The text has no encoding, and the output is left empty. -/
  | unencodable (hdata : exported.data = none) (hwrite : before.write exported.path [] = .ok after)
      (herror : error = .notEncodable)
  /-- The output is written, and a line about it is refused. -/
  | unannounced (data : Bytes) (hdata : exported.data = some data)
      (hwrite : before.write exported.path data = .ok after)
      (hrefused : console.Refuses printed error)
  /-- The output is written, and the samples cannot be. -/
  | unsaved (data samples : Bytes) (hdata : exported.data = some data)
      (hsamples : exported.samples = some samples)
      (hwrite : before.write exported.path data = .ok after)
      (hfail : after.write exported.samplePath samples = .error error)
  /-- Everything is written, and a line about it is refused. -/
  | unreported (data : Bytes) (hdata : exported.data = some data)
      (hstored : exported.Stored data before after) (hrefused : console.Refuses printed error)

/-- How the files after a run go with the way it ended. -/
structure Report.Keeps (report : Report) (console : Console) (before : FileTree)
    (settings : Settings) : Prop where
  done : report.exit = .ok 0 → ∃ exported data, settings.exported before = .ok exported ∧
    exported.data = some data ∧ exported.Stored data before report.tree
  refused : ∀ code, report.exit = .ok code → code ≠ 0 → report.tree = before
  crashed : ∀ error, report.exit = .error error → report.tree = before ∨
    ∃ exported, settings.exported before = .ok exported ∧
      exported.CutShort console before report.tree report.printed error

variable {console : Console} {settings : Settings} {tree : FileTree} {options : Export.Options}
  {project : Project} {warnings : List Arrangement.Warning}

lemma reads_numbers :
    Reads console (checkNumbers settings) tree fun numbers => settings.numbers? = some numbers := by
  have htempo : Reads console (settings.tempo.mapM known) tree fun tempo =>
      settings.tempo.mapM id = some tempo := by
    cases settings.tempo with
    | none => exact reads_pure rfl
    | some tempo =>
      show Reads console (some <$> known tempo) tree _
      rw [map_eq_pure_bind]
      apply reads_known.bind
      rintro number rfl
      exact reads_pure rfl
  apply reads_known.bind
  intro rowsPerBeat hrowsPerBeat
  apply reads_demand.bind
  intro _ _
  apply reads_known.bind
  intro patternLength hpatternLength
  apply reads_demand.bind
  intro _ _
  apply reads_known.bind
  intro speed hspeed
  apply reads_demand.bind
  intro _ _
  apply htempo.bind
  intro tempo htempo
  apply reads_demand.bind
  intro _ _
  apply reads_known.bind
  intro channels hchannels
  apply reads_demand.bind
  intro _ _
  apply reads_known.bind
  intro capacity hcapacity
  apply reads_demand.bind
  intro _ _
  apply reads_pure
  simp [Settings.numbers?, hrowsPerBeat, hpatternLength, hspeed, htempo, hchannels, hcapacity]

lemma reads_map :
    Reads console (loadMap settings) tree fun map => settings.map tree = .ok map := by
  unfold loadMap Settings.map
  cases settings.instrumentMap with
  | none => exact reads_pure rfl
  | some path =>
    apply passes_get.then
    rintro world rfl
    apply reads_need
    intro error
    unfold isInputFault
    split <;> exact nofun

lemma reads_samplePath : Reads console (samplePath settings project) tree fun path =>
    ∀ output, settings.output = some output →
      path = settings.sampleOutput.getD (Export.samplePath tree project output) := by
  unfold samplePath
  cases settings.sampleOutput with
  | some path => exact reads_pure fun _ _ => rfl
  | none =>
    apply passes_get.then
    rintro world rfl
    apply reads_known.bind
    intro path hpath
    apply reads_pure
    intro output houtput
    rw [hpath] at houtput
    rw [Option.some.inj houtput, Option.getD_none]

lemma isExportFault_ne (error : Error) : isExportFault error ≠ some 0 := by
  unfold isExportFault
  split <;> exact nofun

lemma isScoreFault_ne (error : Error) : isScoreFault error ≠ some 0 := by
  unfold isScoreFault isInputFault
  split
  any_goals split
  all_goals exact nofun

/-- Two files written one after the other. -/
lemma Exported.stored {exported : Exported} {data : Bytes} {before mid after : FileTree}
    (hdata : before.write exported.path data = .ok mid)
    (hsamples : Export.saveSamples mid exported.samplePath exported.samples = .ok after) :
    exported.Stored data before after := by
  obtain ⟨place, hplace, hmid⟩ := FileTree.stores_of_write hdata
  cases hs : exported.samples with
  | none =>
    rw [hs] at hsamples
    obtain rfl := Except.ok.inj hsamples
    refine ⟨fun _ h => ?_, fun _ => hmid.read_self hplace, fun other hother _ => ?_⟩
    · rw [hs] at h
      exact nomatch h
    · apply hmid.node?_other
      rintro rfl
      exact hother hplace
  | some samples =>
    rw [hs] at hsamples
    obtain ⟨second, hsecond, hafter⟩ := FileTree.stores_of_write hsamples
    have hlocate := hmid.locate_eq_ok_iff.mp hsecond
    refine ⟨fun other h => ?_, fun hne => ?_, fun other hfirst hother => ?_⟩
    · rw [hs] at h
      obtain rfl := Option.some.inj h
      exact hafter.read_self hsecond
    · apply hafter.read_other _ (hmid.read_self hplace)
      intro hsame
      rw [hs] at hne
      exact hne rfl (hlocate.trans (hmid.locate_eq_ok_iff.mp hsame).symm)
    · have hone : other ≠ place := by
        rintro rfl
        exact hfirst hplace
      have htwo : other ≠ second := by
        rintro rfl
        rw [hs] at hother
        exact hother rfl hlocate
      rw [hafter.node?_other htwo, hmid.node?_other hone]

/-- What a run writes first: the data, or an empty file if the text has no encoding. -/
def Settings.Writes (settings : Settings) (options : Export.Options) (project : Project)
    (warnings : List Arrangement.Warning) (data samples : Option Bytes)
    (before after : FileTree) : Prop :=
  ∃ path, settings.output = some path ∧
    settings.encoded options project warnings = .ok (data, samples) ∧
    before.write path (data.getD []) = .ok after

/-- How the first file of a run can fail: it is not written, it is left empty, or a line after it
is refused. -/
def Settings.Fails (settings : Settings) (console : Console) (options : Export.Options)
    (project : Project) (warnings : List Arrangement.Warning) (before : FileTree) (stop : Stop)
    (after : World) : Prop :=
  after.tree = before ∧ stop ≠ .exit 0 ∨
    (stop = .crash .notEncodable ∧
      ∃ samples, settings.Writes options project warnings none samples before after.tree) ∨
    ∃ error, stop = .crash error ∧ console.Refuses after.printed error ∧ ∃ data samples,
      settings.Writes options project warnings (some data) samples before after.tree

lemma runs_writeBinary (hbinary : settings.binary = true) :
    Runs console (writeBinary settings options project) tree
      (fun result after =>
        ∃ data, settings.Writes options project warnings (some data) result.2 tree after)
      (settings.Fails console options project warnings tree) := by
  apply (reads_need isExportFault_ne).then (fun _ _ hworld hstop => .inl ⟨hworld, hstop⟩)
  rintro ⟨bytes, samples⟩ hlink
  rw [mapError_eq_ok_iff] at hlink
  apply reads_known.then (fun _ _ hworld hstop => .inl ⟨hworld, hstop⟩)
  intro path hpath
  apply write_then (fun _ _ _ hworld => .inl ⟨hworld, nofun⟩)
  intro after hwrite
  apply runs_pure
  refine ⟨bytes, path, hpath, ?_, hwrite⟩
  rw [Settings.encoded, if_pos hbinary, hlink]
  rfl

lemma runs_writeText (hbinary : settings.binary = false) :
    Runs console (writeText settings options project warnings) tree
      (fun result after =>
        ∃ data, settings.Writes options project warnings (some data) result.2 tree after)
      (settings.Fails console options project warnings tree) := by
  apply reads_chosen.then (fun _ _ hworld hstop => .inl ⟨hworld, hstop⟩)
  intro dialect hdialect
  apply (reads_need isExportFault_ne).then (fun _ _ hworld hstop => .inl ⟨hworld, hstop⟩)
  intro document hdocument
  rw [mapError_eq_ok_iff] at hdocument
  apply reads_known.then (fun _ _ hworld hstop => .inl ⟨hworld, hstop⟩)
  intro path hpath
  have hencoded : settings.encoded options project warnings =
      .ok (if isEncodable settings warnings then
        some (annotated warnings (document.text dialect)).toUTF8.data.toList else none,
        document.samples) := by
    rw [Settings.encoded, hbinary, hdialect, hdocument]
    rfl
  dsimp only
  by_cases hplain : isEncodable settings warnings = true
  · rw [if_pos hplain] at hencoded
    rw [hplain]
    apply passes_get.then
    rintro world rfl
    apply keep_then (fun _ _ _ hworld => .inl ⟨hworld, nofun⟩)
    intro after hwrite
    rw [FileTree.writeText_eq] at hwrite
    have hwrites : settings.Writes options project warnings _ _ world.tree after :=
      ⟨path, hpath, hencoded, hwrite⟩
    refine (prints_forIn ?_).then ?_ fun _ _ => runs_pure ⟨_, hwrites⟩
    · rintro ⟨song, number⟩
      exact prints_printEach
    · rintro error _ rfl hrefused
      exact .inr (.inr ⟨error, rfl, hrefused, _, _, hwrites⟩)
  · rw [if_neg hplain] at hencoded
    rw [Bool.eq_false_iff.mpr hplain]
    apply write_then (fun _ _ _ hworld => .inl ⟨hworld, nofun⟩)
    intro after hwrite
    have hcrash : Runs console (throw (.crash .notEncodable) : Program Unit) after
        (fun _ _ => False) (settings.Fails console options project warnings tree) := by
      apply runs_throw
      rintro world rfl
      exact .inr (.inl ⟨rfl, _, path, hpath, hencoded, hwrite⟩)
    exact hcrash.bind fun _ _ h => h.elim

lemma runs_first : Runs console (if settings.binary = true then
      writeBinary settings options project
      else writeText settings options project warnings) tree
    (fun result after =>
      ∃ data, settings.Writes options project warnings (some data) result.2 tree after)
    (settings.Fails console options project warnings tree) := by
  cases hbinary : settings.binary with
  | true => exact runs_writeBinary hbinary
  | false => exact runs_writeText hbinary

/-- How the conversion can stop. -/
def Settings.Stops (settings : Settings) (console : Console) (before : FileTree) (stop : Stop)
    (after : World) : Prop :=
  after.tree = before ∧ stop ≠ .exit 0 ∨ ∃ error exported, stop = .crash error ∧
    settings.exported before = .ok exported ∧
      exported.CutShort console before after.tree after.printed error

/-- What the conversion leaves when it is through. -/
def Settings.Converts (settings : Settings) (before after : FileTree) : Prop :=
  ∃ exported data, settings.exported before = .ok exported ∧ exported.data = some data ∧
    exported.Stored data before after

lemma Settings.stops_refused {before : FileTree} {exported : Exported} {data : Bytes}
    {printed : World} {error : Error} (hexported : settings.exported before = .ok exported)
    (hdata : exported.data = some data) (hstored : exported.Stored data before printed.tree)
    (hrefused : console.Refuses printed.printed error) :
    settings.Stops console before (.crash error) printed :=
  .inr ⟨error, exported, rfl, hexported, .unreported data hdata hstored hrefused⟩

/-- The last line of a run, when everything is stored. -/
lemma runs_lastLine {before after : FileTree} {exported : Exported} {data : Bytes} {path : Points}
    (hpath : settings.output = some path) (hexported : settings.exported before = .ok exported)
    (hdata : exported.data = some data) (hstored : exported.Stored data before after)
    (line : Points → Points) :
    Runs console (known settings.output >>= fun output => print (line output)) after
      (fun _ after => settings.Converts before after) (settings.Stops console before) := by
  have hknown : Passes console (known settings.output) after fun _ => True := by
    rw [hpath]
    exact runs_pure ⟨rfl, trivial⟩
  apply hknown.then
  intro output _
  refine Runs.mono prints_print ?_ ?_
  · rintro _ _ ⟨rfl, -⟩
    exact ⟨exported, data, hexported, hdata, hstored⟩
  · rintro _ printed ⟨rfl, error, rfl, hrefused⟩
    exact Settings.stops_refused hexported hdata hstored hrefused

lemma runs_finish {before mid : FileTree} {exported : Exported} {data : Bytes} {path : Points}
    {size : Nat} (hpath : settings.output = some path)
    (hexported : settings.exported before = .ok exported) (hdata : exported.data = some data)
    (hwrite : before.write exported.path data = .ok mid) :
    Runs console (finish settings size exported.samplePath exported.samples) mid
      (fun _ after => settings.Converts before after) (settings.Stops console before) := by
  have hstored : ∀ after,
      Export.saveSamples mid exported.samplePath exported.samples = .ok after →
      exported.Stored data before after := fun _ => Exported.stored hwrite
  unfold finish
  cases hsamples : exported.samples with
  | none =>
    rw [hsamples] at hstored
    exact runs_lastLine hpath hexported hdata (hstored mid rfl) _
  | some samples =>
    rw [hsamples] at hstored
    apply write_then
    · rintro error _ hfail rfl
      exact .inr ⟨error, exported, rfl, hexported, .unsaved data samples hdata hsamples hwrite hfail⟩
    intro after hafter
    apply prints_print.then
    · rintro error printed rfl hrefused
      exact Settings.stops_refused hexported hdata (hstored _ hafter) hrefused
    intro _ _
    exact runs_lastLine hpath hexported hdata (hstored after hafter) _

lemma runs_convert : Runs console (convert settings) tree
    (fun _ after => settings.Converts tree after) (settings.Stops console tree) := by
  have hstops : ∀ stop world, world.tree = tree → stop ≠ .exit 0 →
      settings.Stops console tree stop world := fun _ _ hworld hstop => .inl ⟨hworld, hstop⟩
  apply reads_numbers.then hstops
  intro numbers hnumbers
  apply passes_get.then
  rintro world rfl
  dsimp only
  by_cases hinput : (!world.tree.isFile settings.input) = true
  · rw [if_pos hinput]
    have hcomplain : Reads console
        (complain 2 ("input not found: " ++ settings.input) : Program Unit)
        world.tree fun _ => False := reads_complain (by decide)
    exact hcomplain.then hstops fun _ h => h.elim
  rw [if_neg hinput]
  apply reads_map.then hstops
  intro map hmap
  apply passes_get.then
  intro _ hworld
  rw [hworld]
  apply (reads_need isScoreFault_ne).then hstops
  rintro ⟨project, warnings⟩ harranged
  apply (prints_forIn fun _ => prints_printEach).reads.then hstops
  intro _ _
  apply reads_samplePath.then hstops
  intro samplePath hsamplePath
  apply reads_chosen.then hstops
  intro kernel hkernel
  have hexported : ∀ path data samples, settings.output = some path →
      settings.encoded { kernel, capacity := numbers.capacity } project warnings =
        .ok (data, samples) →
      settings.exported world.tree = .ok { path, data, samplePath, samples } := by
    intro path data samples hpath hencoded
    rw [Settings.exported, hnumbers, hmap]
    dsimp only [ok_bind]
    rw [harranged, hkernel, hpath]
    dsimp only [ok_bind]
    rw [hencoded, hsamplePath path hpath]
    rfl
  have hfirst : Runs console _ world.tree _ (settings.Fails console
    { kernel, capacity := numbers.capacity } project warnings world.tree) := runs_first
  refine Runs.ite_bind (hfirst.mono (fun _ _ h => h) ?_) ?_
  · rintro stop after (⟨htree, hstop⟩ | ⟨rfl, samples, path, hpath, hencoded, hwrite⟩ |
      ⟨error, rfl, hrefused, data, samples, path, hpath, hencoded, hwrite⟩)
    · exact hstops stop after htree hstop
    · exact .inr ⟨_, _, rfl, hexported _ _ _ hpath hencoded, .unencodable rfl hwrite rfl⟩
    · exact .inr ⟨_, _, rfl, hexported _ _ _ hpath hencoded, .unannounced data rfl hwrite hrefused⟩
  rintro ⟨size, samples⟩ mid ⟨data, path, hpath, hencoded, hwrite⟩
  exact runs_finish hpath (hexported path (some data) samples hpath hencoded) rfl hwrite

/-- A run that is through has stored its data, and a run that is refused has changed nothing. Only
an error can leave a changed file without its counterpart or without a report. -/
theorem run_keeps (console : Console) (tree : FileTree) (words : List Points) :
    match Settings.ofWords words with
    | .run settings => (run console tree words).Keeps console tree settings
    | .help | .refused => (run console tree words).tree = tree := by
  unfold run program
  cases hwords : Settings.ofWords words with
  | help => exact rfl
  | refused => exact rfl
  | run settings =>
    have hconvert : Runs console (convert settings) tree _ _ := runs_convert
    have hrun := hconvert { tree } rfl
    dsimp only
    rcases hres : (((convert settings).run console).run { tree } : Except Stop Unit × World) with
      ⟨stop | _, world⟩
    · rw [hres] at hrun
      cases stop with
      | exit code =>
        rcases hrun with ⟨hsame, hcode⟩ | ⟨_, _, h, -⟩
        · refine ⟨fun h => ?_, fun _ _ _ => hsame, nofun⟩
          exact absurd (congrArg Stop.exit (Except.ok.inj h)) hcode
        · exact nomatch h
      | crash error =>
        refine ⟨nofun, nofun, ?_⟩
        intro _ h
        obtain rfl := Except.error.inj h
        rcases hrun with ⟨hsame, -⟩ | ⟨error, exported, h, hexported, hcut⟩
        · exact .inl hsame
        · obtain rfl := Stop.crash.inj h
          exact .inr ⟨exported, hexported, hcut⟩
    · rw [hres] at hrun
      refine ⟨fun _ => hrun, ?_, nofun⟩
      intro code h hcode
      exact absurd (Except.ok.inj h).symm hcode

/-- One stroke of a drum, a map with a sample for it, and a map with an instrument whose file has
no readable name. -/
def drumRoom : FileTree :=
  let stroke : Bytes := [0x4d, 0x54, 0x68, 0x64, 0, 0, 0, 6, 0, 1, 0, 1, 0, 4,
    0x4d, 0x54, 0x72, 0x6b, 0, 0, 0, 4, 0, 0x99, 36, 100]
  let kit := "\x7b\"samples\": \x7b\"36\": \x7b\"file\": \"kick\"\x7d\x7d\x7d"
  let tones := "\x7b\"default\": \x7b\"fti\": \"\\udc80\"\x7d\x7d"
  { workingDirectory := "/w"
    files := [(["w", "in.mid"], stroke), (["w", "kit.json"], kit.toUTF8.toList),
      (["w", "kick"], [0x55]), (["w", "tones.json"], tones.toUTF8.toList),
      (["w", [.half 0xDC80]], [0])] }

/-- The words of a run in the drum room. -/
def drumWords (output map : Points) : List Points :=
  ["in.mid", output, "--pattern-length", "6", "--instrument-map", map]

/-- Words that ask for the samples in a folder that does not exist. -/
def drumFolder : List Points := ["--dmc-output", "kits/kick.dmc"]

theorem drumRoom_stored : ∃ settings exported data,
    Settings.ofWords (drumWords "out.s" "kit.json") = .run settings ∧
      settings.exported drumRoom = .ok exported ∧ exported.data = some data ∧
      exported.Stored data drumRoom (run .utf8 drumRoom (drumWords "out.s" "kit.json")).tree := by
  have hkeeps := run_keeps .utf8 drumRoom (drumWords "out.s" "kit.json")
  have hexit : (run .utf8 drumRoom (drumWords "out.s" "kit.json")).exit = .ok 0 := by
    decide +kernel
  have hwords : ∃ settings, Settings.ofWords (drumWords "out.s" "kit.json") = .run settings :=
    ⟨_, rfl⟩
  obtain ⟨settings, hwords⟩ := hwords
  rw [hwords] at hkeeps
  obtain ⟨exported, data, hexported, hdata, hstored⟩ := hkeeps.done hexit
  exact ⟨settings, exported, data, hwords, hexported, hdata, hstored⟩

/-- A run that is through has stored both its data and its samples, and any other run has changed
nothing. -/
def AllOrNothing (console : Console) (tree : FileTree) (words : List Points) : Prop :=
  match Settings.ofWords words with
  | .run settings =>
    ((run console tree words).exit = .ok 0 → ∃ exported data,
      settings.exported tree = .ok exported ∧ exported.data = some data ∧
      (run console tree words).tree.read exported.path = .ok data ∧
      ∀ samples, exported.samples = some samples →
        (run console tree words).tree.read exported.samplePath = .ok samples) ∧
    ((run console tree words).exit ≠ .ok 0 → (run console tree words).tree = tree)
  | .help | .refused => (run console tree words).tree = tree

/-- What the words ask for. -/
def asked (tree : FileTree) (words : List Points) : Option Exported :=
  match Settings.ofWords words with
  | .run settings => (settings.exported tree).toOption
  | .help | .refused => none

/-- The blob of samples replaces an output of its name, an output stays without the samples whose
folder is missing, an output whose name is no text is written before its name cannot be printed,
and a text without an encoding leaves an empty one where it could be printed. -/
theorem not_allOrNothing : ¬ AllOrNothing .utf8 drumRoom (drumWords "in.dmc" "kit.json") ∧
    ¬ AllOrNothing .utf8 drumRoom
      (drumWords "out.s" "kit.json" ++ drumFolder) ∧
    ¬ AllOrNothing .utf8 drumRoom (drumWords [.char 'o', .half 0xDCFF] "kit.json") ∧
    ¬ AllOrNothing .accepting drumRoom (drumWords "out.s" "tones.json") := by
  have hfailed : ∀ console words, (run console drumRoom words).exit ≠ .ok 0 ∧
      (run console drumRoom words).tree.files ≠ drumRoom.files →
      ¬ AllOrNothing console drumRoom words := by
    rintro console words ⟨hexit, hfiles⟩ h
    unfold AllOrNothing at h
    split at h
    · exact hfiles (congrArg FileTree.files (h.2 hexit))
    · exact hfiles (congrArg FileTree.files h)
    · exact hfiles (congrArg FileTree.files h)
  have hlost : ∀ console words, ((run console drumRoom words).exit = .ok 0 ∧
      (run console drumRoom words).tree.files ≠ drumRoom.files ∧
      ∀ exported ∈ asked drumRoom words, ∀ data ∈ exported.data,
        (run console drumRoom words).tree.read exported.path ≠ .ok data) →
      ¬ AllOrNothing console drumRoom words := by
    rintro console words ⟨hexit, hfiles, hread⟩ h
    unfold AllOrNothing at h
    split at h
    · next settings hwords =>
      obtain ⟨exported, data, hexported, hdata, hstored, -⟩ := h.1 hexit
      have hasked : asked drumRoom words = some exported := by
        rw [asked, hwords]
        dsimp only
        rw [hexported]
        rfl
      exact hread exported hasked data hdata hstored
    · exact hfiles (congrArg FileTree.files h)
    · exact hfiles (congrArg FileTree.files h)
  refine ⟨hlost _ _ ?_, hfailed _ _ ?_, hfailed _ _ ?_, hfailed _ _ ?_⟩ <;> decide +kernel

end Chiptune.CommandLine
