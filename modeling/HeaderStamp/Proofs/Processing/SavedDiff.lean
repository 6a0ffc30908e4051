import HeaderStamp.Proofs.Processing.Tally

namespace HeaderStamp

namespace Machine

/-- The machine with these entries added to the file at a location, one after the other. Without any
entry the file is not even made. -/
def withEntries (machine : Machine) (location : Location) (old : Option Bytes) :
    List Bytes → Machine
  | [] => machine
  | entry :: entries => machine.withFile location (old.getD [] ++ (entry :: entries).flatten)

variable {machine : Machine} {file path : Text} {location : Location} {old : Option Bytes}

theorem append_withEntries (h : machine.slot file = .ok (location, old)) (entries : List Bytes)
    (bytes : Bytes) :
    (machine.withEntries location old entries).append file bytes =
      .ok (machine.withEntries location old (entries ++ [bytes])) := by
  cases entries with
  | nil =>
    rw [withEntries, append_of_slot h]
    simp [withEntries]
  | cons entry entries =>
    rw [withEntries, append_withFile h]
    simp [withEntries]

theorem bytes?_withFile_self (h : machine.slot file = .ok (location, old)) (bytes : Bytes) :
    (machine.withFile location bytes).bytes? file = some bytes := by
  obtain ⟨found, hfound, hread⟩ := exists_read_of_fileAt? (fileAt?_withFile h bytes)
  rw [withFile, (hasRoom_of_slot h).at?_putAt_self] at hfound
  cases hfound
  rw [bytes?, hread]
  rfl

theorem bytes?_of_slot (h : machine.slot file = .ok (location, old)) :
    machine.bytes? file = old := by
  rcases slot_eq_ok h with ⟨bytes, rfl, hlocate⟩ | ⟨folder, name, rfl, -, hlocate⟩
  · rw [bytes?, read, hlocate]
    rfl
  · rw [bytes?, read, hlocate]
    rfl

theorem bytes?_withEntries (h : machine.slot file = .ok (location, old)) (entries : List Bytes) :
    (machine.withEntries location old entries).bytes? file =
      if entries = [] then old else some (old.getD [] ++ entries.flatten) := by
  cases entries with
  | nil => exact bytes?_of_slot h
  | cons entry entries => exact bytes?_withFile_self h _

theorem bytes?_withEntries_of_apart (h : machine.slot file = .ok (location, old))
    (hapart : (machine.withFile location []).Apart path file) (entries : List Bytes) :
    (machine.withEntries location old entries).bytes? path = machine.bytes? path := by
  cases entries with
  | nil => rfl
  | cons entry entries =>
    refine bytes?_withFile h _ fun heq ↦ ?_
    have hsame := (rewritten_of_slot h [] (old.getD [] ++ (entry :: entries).flatten)).apart_iff
      path file
    exact (hsame.mpr hapart).ne_of_fileAt? (fileAt?_withFile h _) _ heq rfl

theorem readSource_eq_ok_iff {content : Text} :
    machine.readSource path = .ok content ↔
      ∃ bytes, machine.bytes? path = some bytes ∧ sourceText path bytes = .ok content := by
  rw [readSource, bytes?]
  cases machine.read path with
  | error fault => simp [Except.toOption]
  | ok bytes => simp [Except.toOption]

end Machine

namespace Processor

def comparison (processor : Processor) (machine : Machine) (report : FileReport) : Bytes :=
  match machine.readSource report.path with
  | .error _ => []
  | .ok old =>
    Utf8.encode (Diff.unified report.relative old
      (processor.annotate report.relative old).insertion.content)

def comparisons (processor : Processor) (machine : Machine) (reports : List FileReport) :
    List Bytes :=
  (reports.filter fun report ↦ report.action = .missing).map (processor.comparison machine)

def Lacks (processor : Processor) (machine : Machine) (report : FileReport) : Prop :=
  ∃ old, machine.readSource report.path = .ok old ∧
    (processor.annotate report.relative old).insertion.changed = true

/-- A run that leaves in the file just what was there and the comparisons of the files it reports as
missing their headers. -/
structure Saves (processor : Processor) (machine : Machine) (file : Text) (paths : List Text) :
    Prop where
  paths_eq : (processor.processAll machine paths).reports.map FileReport.path = paths
  lacks : ∀ report ∈ (processor.processAll machine paths).reports, report.action = .missing →
    processor.Lacks machine report
  bytes_eq : ((processor.processAll machine paths).machine.bytes? file).getD [] =
    (machine.bytes? file).getD [] ++
      (processor.comparisons machine (processor.processAll machine paths).reports).flatten
  isSome_iff : ((processor.processAll machine paths).machine.bytes? file).isSome ↔
    (machine.bytes? file).isSome ∨
      ∃ report ∈ (processor.processAll machine paths).reports, report.action = .missing

variable {processor : Processor} {machine : Machine} {diff : DiffSettings} {file path : Text}
  {location : Location} {old : Option Bytes}

theorem keepDiff_withEntries (hfile : diff.file = some file)
    (hslot : machine.slot file = .ok (location, old)) (entries : List Bytes)
    (path relative content new : Text) :
    (keepDiff diff (machine.withEntries location old entries) path relative content new).1 =
      machine.withEntries location old
        (entries ++ [Utf8.encode (Diff.unified relative content new)]) := by
  have henabled : diff.isEnabled = true := by simp [DiffSettings.isEnabled, hfile]
  rw [keepDiff, if_pos henabled]
  simp only [DiffSettings.save, hfile, Machine.append_withEntries hslot, Except.mapError]

/-- A file that is checked adds its comparison if it is reported as missing its header, and nothing
otherwise. -/
theorem processFile_withEntries (htask : processor.task = .check diff)
    (hfile : diff.file = some file) (hslot : machine.slot file = .ok (location, old))
    (hapart : (machine.withFile location []).Apart path file)
    (entries : List Bytes) (relative : Text) :
    let step := processor.processFile (machine.withEntries location old entries) path relative
    step.machine = machine.withEntries location old
        (entries ++ processor.comparisons machine [step.report]) ∧
      (step.report.action = .missing → processor.Lacks machine step.report) := by
  intro step
  have hsource : ∀ content,
      (machine.withEntries location old entries).readSource path = .ok content →
        machine.readSource path = .ok content := by
    intro content hcontent
    rw [Machine.readSource_eq_ok_iff] at hcontent ⊢
    rwa [Machine.bytes?_withEntries_of_apart hslot hapart] at hcontent
  cases hread : (machine.withEntries location old entries).readSource path with
  | error e =>
    have hstep : step = failed (machine.withEntries location old entries) path relative e [] := by
      simp only [step, processFile, hread]
    rw [hstep]
    simp [failed, FileReport.ofFailure, comparisons]
  | ok content =>
    have hcontent := hsource content hread
    cases hchanged : (processor.annotate relative content).insertion.changed with
    | false =>
      simp [step, processFile, hread, hchanged, comparisons]
    | true =>
      simp [step, processFile, hread, hchanged, htask, keepDiff_withEntries hfile hslot,
        comparisons, comparison, Lacks, hcontent]

theorem comparisons_cons (report : FileReport) (reports : List FileReport) :
    processor.comparisons machine (report :: reports) =
      processor.comparisons machine [report] ++ processor.comparisons machine reports := by
  rw [comparisons, comparisons, comparisons, ← List.map_append, ← List.filter_append]
  rfl

theorem processAll_withEntries (htask : processor.task = .check diff)
    (hfile : diff.file = some file) (hslot : machine.slot file = .ok (location, old))
    {paths : List Text}
    (hapart : ∀ path ∈ paths, (machine.withFile location []).Apart path file)
    (entries : List Bytes) :
    let batch := processor.processAll (machine.withEntries location old entries) paths
    batch.machine = machine.withEntries location old
        (entries ++ processor.comparisons machine batch.reports) ∧
      ∀ report ∈ batch.reports, report.action = .missing → processor.Lacks machine report := by
  induction paths generalizing entries with
  | nil => simp [processAll, comparisons]
  | cons path rest ih =>
    obtain ⟨hfirst, hrest⟩ := List.forall_mem_cons.mp hapart
    obtain ⟨hmachine, hlacks⟩ := processFile_withEntries htask hfile hslot hfirst entries
      ((machine.withEntries location old entries).relative path processor.root)
    obtain ⟨hbatch, hbatchLacks⟩ := ih hrest (entries ++ processor.comparisons machine
      [(processor.processFile (machine.withEntries location old entries) path
        ((machine.withEntries location old entries).relative path processor.root)).report])
    rw [← hmachine] at hbatch hbatchLacks
    intro batch
    constructor
    · rw [show batch.reports = _ :: _ from rfl, comparisons_cons, ← List.append_assoc]
      exact hbatch
    · exact List.forall_mem_cons.mpr ⟨hlacks, hbatchLacks⟩

theorem saves_of_slot (htask : processor.task = .check diff) (hfile : diff.file = some file)
    (hslot : machine.slot file = .ok (location, old)) {paths : List Text}
    (hapart : ∀ path ∈ paths, (machine.withFile location []).Apart path file) :
    processor.Saves machine file paths := by
  obtain ⟨hmachine, hlacks⟩ := processAll_withEntries htask hfile hslot hapart []
  rw [Machine.withEntries, List.nil_append] at hmachine
  have hbytes := Machine.bytes?_withEntries hslot
    (processor.comparisons machine (processor.processAll machine paths).reports)
  rw [← hmachine] at hbytes
  refine ⟨path_processAll processor machine paths, hlacks, ?_, ?_⟩
  · rw [hbytes, Machine.bytes?_of_slot hslot]
    split
    · next hnone => simp [hnone]
    · rfl
  · have hnone : processor.comparisons machine (processor.processAll machine paths).reports = [] ↔
        ¬ ∃ report ∈ (processor.processAll machine paths).reports, report.action = .missing := by
      simp [comparisons]
    rw [hbytes, Machine.bytes?_of_slot hslot]
    split
    · next h => simp [hnone.mp h]
    · next h => simp [not_not.mp (mt hnone.mpr h)]

/-- A check adds to the file of the comparisons, whether this is there, is missing or has been begun
afresh, and it adds what the files lack that it reports so, in their order. A run that writes leaves
the file alone. -/
theorem saves_comparisons (htask : processor.task = .check diff) (hfile : diff.file = some file)
    {opened : Machine} (hopened : machine.append file [] = .ok opened) {paths : List Text}
    (hapart : ∀ path ∈ paths, opened.Apart path file) :
    processor.Saves machine file paths ∧
      (∃ fresh, diff.begin machine = .ok fresh ∧ fresh.bytes? file = some [] ∧
        processor.Saves fresh file paths) ∧
      ({ processor with task := .write }.processAll machine paths).machine.bytes? file =
        machine.bytes? file := by
  obtain ⟨location, old, hslot, rfl⟩ := Machine.exists_slot_of_append hopened
  rw [List.append_nil] at hapart
  have hopen := Machine.rewritten_of_slot hslot [] (old.getD [])
  have hempty : ∀ path ∈ paths, (machine.withFile location []).Apart path file :=
    fun path hpath ↦ (hopen.apart_iff path file).mp (hapart path hpath)
  refine ⟨saves_of_slot htask hfile hslot hempty, ⟨machine.withFile location [], ?_, ?_, ?_⟩, ?_⟩
  · rw [DiffSettings.begin, hfile]
    simp only [Machine.write, hslot]
    rfl
  · exact Machine.bytes?_withFile_self hslot []
  · refine saves_of_slot htask hfile (Machine.slot_withFile hslot []) ?_
    rwa [Machine.withFile_withFile]
  · have hapart : ∀ path ∈ paths, machine.Apart file path := fun path hpath ↦
      ((Machine.keeps_withFile hslot []).apart (hempty path hpath)).symm
    have hrewritten : Machine.Rewritten (machine.places paths) machine
        ({ processor with task := .write }.processAll machine paths).machine :=
      processAll_rewritten rfl machine paths
    exact Machine.bytes?_congr (hrewritten.read_eq (Machine.notMem_places hapart))

theorem saves_comparisons_of_linked_file :
    let machine : Machine :=
      ⟨.file "a.go".toList (Utf8.encode "package a\r\n".toList)
        (.file "b.go".toList [0xFF] (.file "old.diff".toList [0x7A]
          (.link "changes.diff".toList "old.diff".toList .empty))), []⟩
    let diff : DiffSettings := ⟨true, some "/changes.diff".toList⟩
    let paths := ["/b.go".toList, "/a.go".toList, "/none.go".toList, "/a.go".toList]
    ∃ processor, ofConfig Config.builtin "2025".toList "/".toList (.check diff) = .ok processor ∧
      processor.task = .check diff ∧ diff.file = some "/changes.diff".toList ∧
      machine.append "/changes.diff".toList [] = .ok machine ∧
      (∀ path ∈ paths, machine.Apart path "/changes.diff".toList) ∧
      processor.Saves machine "/changes.diff".toList paths ∧
      ({ processor with task := .write }.processAll machine paths).machine.bytes?
        "/changes.diff".toList = some [0x7A] := by
  intro machine diff paths
  obtain ⟨processor, h⟩ := exists_ofConfig_builtin "2025".toList "/".toList (.check diff)
  obtain ⟨-, -, -, -, -, htask⟩ := ofConfig_eq_ok h
  have hopened : machine.append "/changes.diff".toList [] = .ok machine := by decide +kernel
  have hapart : ∀ path ∈ paths, machine.Apart path "/changes.diff".toList := by decide +kernel
  have hheld : machine.bytes? "/changes.diff".toList = some [0x7A] := by decide +kernel
  obtain ⟨hsaves, -, hwrite⟩ := saves_comparisons htask rfl hopened hapart
  exact ⟨processor, h, htask, rfl, hopened, hapart, hsaves, hwrite.trans hheld⟩

end Processor

end HeaderStamp
