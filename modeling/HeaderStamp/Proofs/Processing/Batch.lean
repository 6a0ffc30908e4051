import HeaderStamp.Processing.Processor
import HeaderStamp.Proofs.FileTree.Rewriting

namespace HeaderStamp

namespace Machine

theorem readSource_congr {before after : Machine} {path : Text}
    (h : after.read path = before.read path) : after.readSource path = before.readSource path := by
  rw [readSource, readSource, h]

theorem exists_read_of_readSource {machine : Machine} {path content : Text}
    (h : machine.readSource path = .ok content) :
    ∃ bytes, machine.read path = .ok bytes ∧ sourceText path bytes = .ok content := by
  rw [readSource] at h
  split at h
  · cases h
  · exact ⟨_, ‹_›, h⟩

end Machine

namespace Processor

def review (processor : Processor) (machine : Machine) (path : Text) : Except FileError Stamped :=
  (machine.readSource path).map (processor.annotate (machine.relative path processor.root))

/-- The text that the file of a path is to hold instead of its own. -/
def update? (processor : Processor) (machine : Machine) (path : Text) : Option Text :=
  match processor.review machine path with
  | .error _ => none
  | .ok stamped =>
    if stamped.insertion.changed then some stamped.insertion.content else none

/-- The record of a file, given what is said of a file that lacks its header. -/
def reportOf (processor : Processor) (lacking : Action) (machine : Machine) (path : Text) :
    FileReport :=
  match processor.review machine path with
  | .error e => .ofFailure path (machine.relative path processor.root) e.message
  | .ok stamped =>
    ⟨path, machine.relative path processor.root, some stamped.component,
      if stamped.insertion.changed then lacking else .alreadyAnnotated, none⟩

/-- What a path reads as once its file has received what it lacks. -/
def outcome (processor : Processor) (machine : Machine) (path : Text) : Except PathFault Bytes :=
  match processor.update? machine path with
  | some content => .ok (Utf8.encode content)
  | none => machine.read path

theorem header_ne_nil (processor : Processor) (relative : Text) :
    processor.header relative ≠ [] := List.cons_ne_nil _ _

variable {processor : Processor} {machine : Machine} {path : Text}

/-- Nothing is done to a file that needs no header or cannot get one. -/
theorem processFile_of_update?_eq_none (h : processor.update? machine path = none)
    (lacking : Action) :
    (processor.processFile machine path (machine.relative path processor.root)).machine = machine ∧
      (processor.processFile machine path (machine.relative path processor.root)).report =
        processor.reportOf lacking machine path := by
  rw [update?, review] at h
  rw [processFile, reportOf, review]
  cases hread : machine.readSource path with
  | error e => exact ⟨rfl, rfl⟩
  | ok content =>
    rw [hread] at h
    simp only [Except.map] at h ⊢
    split at h
    · cases h
    · rename_i hchanged
      simp [hchanged]

theorem exists_stamped_of_update? {content : Text}
    (h : processor.update? machine path = some content) :
    ∃ old, machine.readSource path = .ok old ∧
      (processor.annotate (machine.relative path processor.root) old).insertion =
        ⟨content, true⟩ := by
  rw [update?, review] at h
  cases hread : machine.readSource path with
  | error e =>
    rw [hread] at h
    cases h
  | ok old =>
    rw [hread] at h
    simp only [Except.map] at h
    split at h
    · rename_i hchanged
      cases h
      exact ⟨old, rfl, by rw [← hchanged]⟩
    · cases h

theorem isSome_fileAt?_of_update? {content : Text}
    (h : processor.update? machine path = some content) :
    ∃ location, machine.fileAt? path = some location := by
  obtain ⟨old, hold, -⟩ := exists_stamped_of_update? h
  obtain ⟨bytes, hbytes, -⟩ := Machine.exists_read_of_readSource hold
  exact Machine.isSome_fileAt?_of_read hbytes

theorem reportOf_of_update?_eq_some {content : Text}
    (h : processor.update? machine path = some content) (lacking : Action) :
    processor.reportOf lacking machine path =
      ⟨path, machine.relative path processor.root,
        some (processor.rules.resolve (machine.relative path processor.root)).component,
        lacking, none⟩ := by
  obtain ⟨old, hold, hstamped⟩ := exists_stamped_of_update? h
  simp only [reportOf, review, hold, Except.map, hstamped]
  rfl

theorem action_reportOf_eq_added_iff :
    (processor.reportOf .added machine path).action = .added ↔
      ∃ content, processor.update? machine path = some content := by
  rw [reportOf, update?]
  cases processor.review machine path with
  | error e => simp [FileReport.ofFailure]
  | ok stamped =>
    dsimp only
    split <;> simp

theorem processFile_of_update?_eq_some (htask : processor.task = .write) {content : Text}
    (h : processor.update? machine path = some content) {after : Machine}
    (hwrite : machine.write path (Utf8.encode content) = .ok after) :
    (processor.processFile machine path (machine.relative path processor.root)).machine = after ∧
      (processor.processFile machine path (machine.relative path processor.root)).report =
        processor.reportOf .added machine path := by
  obtain ⟨old, hold, hstamped⟩ := exists_stamped_of_update? h
  rw [reportOf_of_update?_eq_some h, processFile, hold]
  simp only [hstamped, htask, Machine.writeSource, hwrite, Except.mapError]
  exact ⟨rfl, rfl⟩

/-- A file is reported and written as its own review says, and no other file is touched. -/
theorem processFile_write (htask : processor.task = .write) (machine : Machine) (path : Text) :
    let step := processor.processFile machine path (machine.relative path processor.root)
    step.report = processor.reportOf .added machine path ∧
      Machine.Rewritten (machine.places [path]) machine step.machine ∧
      step.machine.read path = processor.outcome machine path := by
  intro step
  cases hupdate : processor.update? machine path with
  | none =>
    obtain ⟨hmachine, hreport⟩ := processFile_of_update?_eq_none hupdate .added
    refine ⟨hreport, ?_, ?_⟩
    · rw [show step.machine = machine from hmachine]
      exact .refl _ _
    · rw [show step.machine = machine from hmachine, outcome, hupdate]
  | some content =>
    obtain ⟨location, hfile⟩ := isSome_fileAt?_of_update? hupdate
    obtain ⟨after, hwrite, hrewritten, hread⟩ :=
      Machine.exists_write_of_fileAt? hfile (Utf8.encode content)
    obtain ⟨hmachine, hreport⟩ := processFile_of_update?_eq_some htask hupdate hwrite
    refine ⟨hreport, ?_, ?_⟩
    · rw [show step.machine = after from hmachine]
      refine hrewritten.mono ?_
      rintro other rfl
      exact ⟨path, List.mem_singleton_self path, hfile⟩
    · rw [show step.machine = after from hmachine, outcome, hupdate, hread]

theorem review_congr {before after : Machine}
    (hrelative : after.relative path processor.root = before.relative path processor.root)
    (hread : after.read path = before.read path) :
    processor.review after path = processor.review before path := by
  rw [review, review, hrelative, Machine.readSource_congr hread]

theorem reportOf_congr {before after : Machine}
    (hrelative : after.relative path processor.root = before.relative path processor.root)
    (hread : after.read path = before.read path) (lacking : Action) :
    processor.reportOf lacking after path = processor.reportOf lacking before path := by
  rw [reportOf, reportOf, review_congr hrelative hread, hrelative]

theorem review_eq {changed : Set Location} {before after : Machine}
    (h : Machine.Rewritten changed before after)
    (hl : ∀ location, before.fileAt? path = some location → location ∉ changed) :
    processor.review after path = processor.review before path :=
  review_congr (h.relative_eq path processor.root) (h.read_eq hl)

theorem reportOf_eq {changed : Set Location} {before after : Machine}
    (h : Machine.Rewritten changed before after)
    (hl : ∀ location, before.fileAt? path = some location → location ∉ changed)
    (lacking : Action) :
    processor.reportOf lacking after path = processor.reportOf lacking before path :=
  reportOf_congr (h.relative_eq path processor.root) (h.read_eq hl) lacking

theorem outcome_eq {changed : Set Location} {before after : Machine}
    (h : Machine.Rewritten changed before after)
    (hl : ∀ location, before.fileAt? path = some location → location ∉ changed) :
    processor.outcome after path = processor.outcome before path := by
  rw [outcome, outcome, update?, update?, review_eq h hl, h.read_eq hl]

theorem processAll_rewritten (htask : processor.task = .write) (machine : Machine)
    (paths : List Text) :
    Machine.Rewritten (machine.places paths) machine
      (processor.processAll machine paths).machine := by
  induction paths generalizing machine with
  | nil => exact .refl _ _
  | cons path rest ih =>
    obtain ⟨-, hstep, -⟩ := processFile_write htask machine path
    have hrest := ih (processor.processFile machine path
      (machine.relative path processor.root)).machine
    rw [hstep.places_eq] at hrest
    refine (hstep.mono ?_).trans (hrest.mono ?_)
    · rintro location ⟨p, hp, hfile⟩
      exact ⟨p, List.mem_cons.mpr (.inl (List.mem_singleton.mp hp)), hfile⟩
    · rintro location ⟨p, hp, hfile⟩
      exact ⟨p, List.mem_cons_of_mem _ hp, hfile⟩

/-- Files that lie apart are reported as each of them stands before the run. -/
theorem reports_processAll (htask : processor.task = .write) {paths : List Text}
    (hapart : paths.Pairwise machine.Apart) :
    (processor.processAll machine paths).reports =
      paths.map (processor.reportOf .added machine) := by
  induction paths generalizing machine with
  | nil => rfl
  | cons path rest ih =>
    obtain ⟨hnow, hlater⟩ := List.pairwise_cons.mp hapart
    obtain ⟨hreport, hstep, -⟩ := processFile_write htask machine path
    have hlater := hlater.imp fun {p q} h ↦ (hstep.apart_iff p q).mpr h
    rw [processAll, List.map_cons]
    dsimp only
    rw [hreport, ih hlater]
    congr 1
    refine List.map_congr_left fun q hq ↦ reportOf_eq hstep (Machine.notMem_places ?_) .added
    simpa using (hnow q hq).symm

/-- Files that lie apart end up as each of them would on its own. -/
theorem read_processAll (htask : processor.task = .write) {paths : List Text}
    (hapart : paths.Pairwise machine.Apart) :
    ∀ path ∈ paths, (processor.processAll machine paths).machine.read path =
      processor.outcome machine path := by
  induction paths generalizing machine with
  | nil => simp
  | cons path rest ih =>
    obtain ⟨hnow, hlater⟩ := List.pairwise_cons.mp hapart
    obtain ⟨-, hstep, hread⟩ := processFile_write htask machine path
    have hlater := hlater.imp fun {p q} h ↦ (hstep.apart_iff p q).mpr h
    have hrest := processAll_rewritten htask
      (processor.processFile machine path (machine.relative path processor.root)).machine rest
    intro q hq
    rw [processAll]
    dsimp only
    rcases List.mem_cons.mp hq with rfl | hq
    · rw [hrest.read_eq (Machine.notMem_places fun p hp ↦ ?_), hread]
      exact (hstep.apart_iff q p).mpr (hnow p hp)
    · rw [ih hlater q hq]
      refine outcome_eq hstep (Machine.notMem_places ?_)
      simpa using (hnow q hq).symm

end Processor

end HeaderStamp
