import HeaderStamp.Proofs.FileTree.Commuting
import HeaderStamp.Proofs.Processing.Batch
import HeaderStamp.Proofs.Processing.SecondRun

namespace HeaderStamp

theorem Utf8.encode_injective {s t : Text} (h : Utf8.encode s = Utf8.encode t) : s = t := by
  have hdecode := Utf8.decode_encode s
  rw [h, Utf8.decode_encode t] at hdecode
  exact (Except.ok.inj hdecode).symm

namespace FileReport

structure Complete (report : FileReport) : Prop where
  error_iff : report.error.isSome ↔ report.action = .failed
  component_iff : report.component.isSome ↔ report.action ≠ .failed

end FileReport

namespace Processor

def settle (processor : Processor) (machine : Machine) (path : Text) : Machine :=
  match processor.update? machine path, machine.fileAt? path with
  | some content, some location => machine.withFile location (Utf8.encode content)
  | _, _ => machine

variable {processor : Processor} {machine : Machine} {p q path : Text}

theorem settle_of_none (h : processor.update? machine path = none) :
    processor.settle machine path = machine := by
  rw [settle, h]

theorem settle_of_some {content : Text} {location : Location}
    (h : processor.update? machine path = some content)
    (hfile : machine.fileAt? path = some location) :
    processor.settle machine path = machine.withFile location (Utf8.encode content) := by
  rw [settle, h, hfile]

theorem machine_processFile (htask : processor.task = .write) (machine : Machine) (path : Text) :
    (processor.processFile machine path (machine.relative path processor.root)).machine =
      processor.settle machine path := by
  cases hupdate : processor.update? machine path with
  | none =>
    rw [settle_of_none hupdate]
    exact (processFile_of_update?_eq_none hupdate .added).1
  | some content =>
    obtain ⟨location, hfile⟩ := isSome_fileAt?_of_update? hupdate
    rw [settle_of_some hupdate hfile]
    exact (processFile_of_update?_eq_some htask hupdate (Machine.write_of_fileAt? hfile _)).1

theorem machine_processAll (htask : processor.task = .write) (machine : Machine)
    (paths : List Text) :
    (processor.processAll machine paths).machine = paths.foldl processor.settle machine := by
  induction paths generalizing machine with
  | nil => rfl
  | cons path rest ih =>
    rw [processAll, List.foldl_cons, ← machine_processFile htask]
    exact ih _

theorem settle_rewritten (processor : Processor) (machine : Machine) (path : Text) :
    Machine.Rewritten (machine.places [path]) machine (processor.settle machine path) := by
  cases hupdate : processor.update? machine path with
  | none =>
    rw [settle_of_none hupdate]
    exact .refl _ _
  | some content =>
    obtain ⟨location, hfile⟩ := isSome_fileAt?_of_update? hupdate
    obtain ⟨old, hold, -⟩ := Machine.exists_read_of_fileAt? hfile
    rw [settle_of_some hupdate hfile]
    refine (Machine.rewritten_withFile _ hold).mono ?_
    rintro other rfl
    exact ⟨path, List.mem_singleton_self path, hfile⟩

theorem update?_settle (hapart : machine.Apart p q) :
    processor.update? (processor.settle machine p) q = processor.update? machine q := by
  rw [update?, update?, review_eq (settle_rewritten processor machine p)]
  refine Machine.notMem_places ?_
  simpa using hapart.symm

/-- The files of paths that lie apart can be settled in any order. -/
theorem settle_comm (hapart : machine.Apart p q) :
    processor.settle (processor.settle machine p) q =
      processor.settle (processor.settle machine q) p := by
  have hp := @update?_settle processor machine q p hapart.symm
  have hq := @update?_settle processor machine p q hapart
  cases hupdateP : processor.update? machine p with
  | none =>
    rw [settle_of_none hupdateP, settle_of_none (hp.trans hupdateP)]
  | some first =>
    cases hupdateQ : processor.update? machine q with
    | none =>
      rw [settle_of_none hupdateQ, settle_of_none (hq.trans hupdateQ)]
    | some second =>
      obtain ⟨k, hk⟩ := isSome_fileAt?_of_update? hupdateP
      obtain ⟨l, hl⟩ := isSome_fileAt?_of_update? hupdateQ
      obtain ⟨x, hx, -⟩ := Machine.exists_read_of_fileAt? hk
      obtain ⟨y, hy, -⟩ := Machine.exists_read_of_fileAt? hl
      have hne : k ≠ l := hapart.ne_of_fileAt? hl k hk
      have hkAfter := ((settle_rewritten processor machine q).fileAt?_eq p).trans hk
      have hlAfter := ((settle_rewritten processor machine p).fileAt?_eq q).trans hl
      rw [settle_of_some (hq.trans hupdateQ) hlAfter, settle_of_some (hp.trans hupdateP) hkAfter,
        settle_of_some hupdateP hk, settle_of_some hupdateQ hl]
      simp only [Machine.withFile]
      rw [Folder.putAt_comm hne hx hy]

theorem foldl_settle_perm {paths shuffled : List Text} (hperm : shuffled.Perm paths)
    (hapart : paths.Pairwise machine.Apart) :
    shuffled.foldl processor.settle machine = paths.foldl processor.settle machine := by
  induction hperm generalizing machine with
  | nil => rfl
  | cons path hperm ih =>
    obtain ⟨-, hlater⟩ := List.pairwise_cons.mp hapart
    have hstep := settle_rewritten processor machine path
    exact ih (hlater.imp fun {a b} h ↦ (hstep.apart_iff a b).mpr h)
  | swap first second rest =>
    obtain ⟨hfirst, -⟩ := List.pairwise_cons.mp hapart
    rw [List.foldl_cons, List.foldl_cons, List.foldl_cons, List.foldl_cons,
      settle_comm (hfirst second List.mem_cons_self)]
  | trans hfirst hsecond ihFirst ihSecond =>
    have hmiddle := (hsecond.pairwise_iff fun {a b} h ↦ Machine.Apart.symm h).mpr hapart
    exact (ihFirst hmiddle).trans (ihSecond hapart)

theorem path_reportOf (lacking : Action) :
    (processor.reportOf lacking machine path).path = path := by
  rw [reportOf]
  split <;> rfl

theorem complete_reportOf {lacking : Action} (h : lacking ≠ .failed) :
    (processor.reportOf lacking machine path).Complete := by
  rw [reportOf]
  split
  · exact ⟨by simp [FileReport.ofFailure], by simp [FileReport.ofFailure]⟩
  · split
    · exact ⟨by simp [h], by simp [h]⟩
    · exact ⟨by simp, by simp⟩

/-- A file that gets a header gets new bytes: those of its old text, annotated. -/
theorem outcome_of_update? {content : Text} (h : processor.update? machine path = some content) :
    processor.outcome machine path ≠ machine.read path ∧
      ∃ old, machine.readSource path = .ok old ∧ processor.outcome machine path =
        .ok (Utf8.encode
          (processor.annotate (machine.relative path processor.root) old).insertion.content) := by
  obtain ⟨old, hold, hstamped⟩ := exists_stamped_of_update? h
  obtain ⟨bytes, hbytes, hsource⟩ := Machine.exists_read_of_readSource hold
  obtain ⟨-, rfl⟩ := sourceText_eq_ok_iff.mp hsource
  have houtcome : processor.outcome machine path = .ok (Utf8.encode content) := by
    rw [outcome, h]
  refine ⟨?_, old, hold, by rw [houtcome, hstamped]⟩
  intro hsame
  rw [houtcome, hbytes] at hsame
  have hchanged :
      (processor.annotate (machine.relative path processor.root) old).insertion.changed = true := by
    rw [hstamped]
  have hne := Inserter.content_ne_iff.mpr hchanged
  refine hne (Eq.trans ?_ (Utf8.encode_injective (Except.ok.inj hsame)))
  exact congrArg Insertion.content hstamped

theorem outcome_ne_read_iff :
    processor.outcome machine path ≠ machine.read path ↔
      (processor.reportOf .added machine path).action = .added := by
  rw [action_reportOf_eq_added_iff]
  constructor
  · intro hne
    cases hupdate : processor.update? machine path with
    | none => exact absurd (by rw [outcome, hupdate]) hne
    | some content => exact ⟨content, rfl⟩
  · rintro ⟨content, hupdate⟩
    exact (outcome_of_update? hupdate).1

def reportAlone (processor : Processor) (machine : Machine) (path : Text) : FileReport :=
  (processor.processFile machine path (machine.relative path processor.root)).report

/-- What a batch comes to if none of its files minds the others. -/
structure Separate (processor : Processor) (machine : Machine) (paths : List Text) : Prop where
  reports_eq : (processor.processAll machine paths).reports =
    paths.map (processor.reportAlone machine)
  paths_eq : (processor.processAll machine paths).reports.map FileReport.path = paths
  complete : ∀ report ∈ (processor.processAll machine paths).reports, report.Complete
  reports_perm : ∀ shuffled, shuffled.Perm paths →
    (processor.processAll machine shuffled).reports = shuffled.map (processor.reportAlone machine)
  machine_perm : ∀ shuffled, shuffled.Perm paths →
    (processor.processAll machine shuffled).machine = (processor.processAll machine paths).machine
  read_ne_iff : ∀ path ∈ paths,
    (processor.processAll machine paths).machine.read path ≠ machine.read path ↔
      (processor.reportAlone machine path).action = .added
  read_of_added : ∀ path ∈ paths, (processor.reportAlone machine path).action = .added →
    ∃ old, machine.readSource path = .ok old ∧
      (processor.processAll machine paths).machine.read path = .ok (Utf8.encode
        (processor.annotate (machine.relative path processor.root) old).insertion.content)
  rewritten : Machine.Rewritten (machine.places paths) machine
    (processor.processAll machine paths).machine

theorem reportAlone_eq (htask : processor.task = .write) (machine : Machine) :
    processor.reportAlone machine = processor.reportOf .added machine := by
  funext path
  exact (processFile_write htask machine path).1

theorem reports_processAll_alone (htask : processor.task = .write) {paths : List Text}
    (hapart : paths.Pairwise machine.Apart) :
    (processor.processAll machine paths).reports = paths.map (processor.reportAlone machine) := by
  rw [reports_processAll htask hapart, reportAlone_eq htask]

/-- Each file of a batch is reported and rewritten as it would be on its own, so that the order of
the files plays no part. A file that receives its header changes to its own annotated text, and
nothing else changes. -/
theorem processAll_separate (htask : processor.task = .write) (machine : Machine)
    (paths : List Text) (hapart : paths.Pairwise machine.Apart) :
    processor.Separate machine paths where
  reports_eq := reports_processAll_alone htask hapart
  paths_eq := by
    rw [reports_processAll htask hapart, List.map_map]
    exact (List.map_congr_left fun path _ ↦ path_reportOf .added).trans (List.map_id' paths)
  complete := by
    rw [reports_processAll htask hapart]
    intro report hreport
    obtain ⟨path, -, rfl⟩ := List.mem_map.mp hreport
    exact complete_reportOf Action.noConfusion
  reports_perm := by
    intro shuffled hperm
    exact reports_processAll_alone htask
      ((hperm.pairwise_iff fun {a b} h ↦ Machine.Apart.symm h).mpr hapart)
  machine_perm := by
    intro shuffled hperm
    rw [machine_processAll htask, foldl_settle_perm hperm hapart, ← machine_processAll htask]
  read_ne_iff := by
    intro path hpath
    rw [read_processAll htask hapart path hpath, reportAlone_eq htask]
    exact outcome_ne_read_iff
  read_of_added := by
    intro path hpath hadded
    rw [reportAlone_eq htask] at hadded
    obtain ⟨content, hupdate⟩ := action_reportOf_eq_added_iff.mp hadded
    rw [read_processAll htask hapart path hpath]
    exact (outcome_of_update? hupdate).2
  rewritten := processAll_rewritten htask machine paths

theorem processAll_separate_of_five_paths :
    let machine : Machine :=
      ⟨.file "a.go".toList (Utf8.encode "package a\r\n".toList)
        (.file "b.go".toList [0xFF] (.file "c.go".toList [0x61, 0x00]
          (.link "d.go".toList "e.go".toList .empty))), []⟩
    let paths := ["/b.go".toList, "/a.go".toList, "/d.go".toList, "/c.go".toList, "/d.go".toList]
    ∃ processor, ofConfig Config.builtin "2025".toList "/".toList .write = .ok processor ∧
      processor.task = .write ∧ paths.Pairwise machine.Apart ∧
      processor.Separate machine paths := by
  intro machine paths
  obtain ⟨processor, h⟩ := exists_ofConfig_builtin "2025".toList "/".toList .write
  obtain ⟨-, -, -, -, -, htask⟩ := ofConfig_eq_ok h
  have hapart : paths.Pairwise machine.Apart := by decide +kernel
  exact ⟨processor, h, htask, hapart, processAll_separate htask machine paths hapart⟩

end Processor

end HeaderStamp
