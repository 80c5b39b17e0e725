import EvmTrace.Proofs.Replay.Run
import EvmTrace.Proofs.Store.Writing
import EvmTrace.Proofs.Text.Utf8

set_option autoImplicit false

namespace EvmTrace.Replay

/-- The paths of the files of a trace with their texts, if they are made at the given time. -/
def files (options : Options) (time : String) (trace : Trace) : List (String × String) :=
  match options.format with
  | .documents =>
    [(Store.documentPath options.directory trace, (Document.ofTrace time trace).print)]
  | .tables =>
    (Store.tables trace).map fun table =>
      (Path.join (Store.tablesPath options.directory trace) table.1, table.2)

def paths (options : Options) (trace : Trace) : List String :=
  (files options "" trace).map Prod.fst

/-- A place is on the way to a file of one of the traces. -/
def OnWay (options : Options) (tree : FileTree) (traces : List Trace) (place : Place) : Prop :=
  ∃ trace ∈ traces, ∃ path ∈ paths options trace, place ∈ tree.way path

def OfFile (options : Options) (tree : FileTree) (traces : List Trace) (place : Place) : Prop :=
  ∃ trace ∈ traces, ∃ path ∈ paths options trace, place = tree.target path

/-- The files of a trace hold its texts. -/
def Filed (options : Options) (trace : Trace) (tree : FileTree) : Prop :=
  ∃ time, ∀ file ∈ files options time trace, tree.contents file.1 = .ok (Text.encode file.2)

variable {options : Options} {times : FileTree → String} {tree between after : FileTree}

theorem fst_files (options : Options) (time : String) (trace : Trace) :
    (files options time trace).map Prod.fst = paths options trace := by
  cases format : options.format with
  | documents => simp only [paths, files, format, List.map_cons, List.map_nil]
  | tables => simp only [paths, files, format]

theorem paths_documents (format : options.format = .documents) (trace : Trace) :
    paths options trace = [Store.documentPath options.directory trace] := by
  rw [paths, files, format]
  rfl

theorem paths_tables (format : options.format = .tables) (trace : Trace) :
    paths options trace =
      Store.tableNames.map (Path.join (Store.tablesPath options.directory trace)) := by
  rw [paths, files, format]
  rfl

/-- Traces with different hashes have different files. -/
theorem target_ne {trace other : Trace} (apart : trace.metadata.hash ≠ other.metadata.hash)
    {path path' : String} (inside : path ∈ paths options trace)
    (inside' : path' ∈ paths options other) : tree.target path ≠ tree.target path' := by
  intro same
  have texts : Hex.text trace.metadata.hash.bytes = Hex.text other.metadata.hash.bytes := by
    cases format : options.format with
    | documents =>
        rw [paths_documents format, List.mem_singleton] at inside inside'
        rw [inside, inside'] at same
        have names := tree.target_join_inj options.directory (Store.named_document _)
          (Store.named_document _) same
        exact (String.append_left_inj _).mp names
    | tables =>
        rw [paths_tables format, List.mem_map] at inside inside'
        obtain ⟨name, inside, rfl⟩ := inside
        obtain ⟨name', inside', rfl⟩ := inside'
        rw [tree.target_join _ (Store.named_of_mem inside),
          tree.target_join _ (Store.named_of_mem inside')] at same
        exact tree.target_join_inj options.directory (Store.named_hex _) (Store.named_hex _)
          (List.append_inj' same rfl).1
  exact apart (FixedBytes.ext (Hex.text_inj texts))

theorem filed_of_document {trace : Trace} (format : options.format = .documents)
    (written : (Store.writeDocument (Document.ofTrace (times tree) trace)
      (Store.documentPath options.directory trace) : StateM FileTree _) tree = (.ok (), after)) :
    tree.Differs after (OnWay options tree [trace]) (OfFile options tree [trace]) ∧
      Filed options trace after := by
  have own : Store.documentPath options.directory trace ∈ paths options trace := by
    rw [paths_documents format]
    exact List.mem_singleton_self _
  refine ⟨(Store.differs_of_written_document written).mono (fun place passes => ?_)
    fun place here => ?_, times tree, fun file inside => ?_⟩
  · exact ⟨trace, List.mem_singleton_self _, _, own, passes⟩
  · exact ⟨trace, List.mem_singleton_self _, _, own, here⟩
  · rw [files, format] at inside
    rw [List.mem_singleton.mp inside]
    exact Store.contents_of_writeDocument written

theorem filed_of_tables {trace : Trace} (format : options.format = .tables)
    (written : (Store.writeTables (Store.tablesPath options.directory trace) trace :
      StateM FileTree _) tree = (.ok (), after)) :
    tree.Differs after (OnWay options tree [trace]) (OfFile options tree [trace]) ∧
      Filed options trace after := by
  obtain ⟨between, made, held⟩ := Store.kept_of_written_tables written
  have own : ∀ name ∈ Store.tableNames,
      Path.join (Store.tablesPath options.directory trace) name ∈ paths options trace := by
    intro name inside
    rw [paths_tables format]
    exact List.mem_map_of_mem inside
  -- The way to the directory of the tables and this directory are the way to the first table.
  have first : "optrace.csv" ∈ Store.tableNames := List.mem_cons_self
  have around : tree.Differs between (OnWay options tree [trace]) (OfFile options tree [trace]) := by
    apply made.mono
    · intro place reached
      refine ⟨trace, List.mem_singleton_self _, _, own _ first, ?_⟩
      rwa [tree.mem_way_join _ (Store.named_of_mem first).whole]
    · exact fun _ never => never.elim
  have within : between.Differs after (OnWay options tree [trace])
      (OfFile options tree [trace]) := by
    apply held.differs.mono
    · exact fun _ never => never.elim
    · intro place here
      obtain ⟨table, inside, same⟩ := here
      rw [FileTree.target_congr made.working] at same
      exact ⟨trace, List.mem_singleton_self _, _, own table.1 (Store.name_mem_tableNames inside),
        same⟩
  refine ⟨around.trans within, "", fun file inside => ?_⟩
  rw [files, format] at inside
  obtain ⟨table, among, rfl⟩ := List.mem_map.mp inside
  exact held.contents table among

/-- A trace that is written stands in its files, and the rest of the tree is as before. -/
theorem filed_of_write {trace : Trace}
    (written : (sinkOf (FileTree.clock times) options).write trace tree = (.ok (), after)) :
    tree.Differs after (OnWay options tree [trace]) (OfFile options tree [trace]) ∧
      Filed options trace after := by
  rw [sinkOf] at written
  cases format : options.format with
  | documents =>
      rw [format] at written
      exact filed_of_document format written
  | tables =>
      rw [format] at written
      exact filed_of_tables format written

/-- Files stay as they are while other traces are written. -/
theorem Filed.stays {trace : Trace} {traces : List Trace} {made : Place → Prop}
    (filed : Filed options trace between)
    (differs : between.Differs after made (OfFile options between traces))
    (apart : ∀ other ∈ traces, trace.metadata.hash ≠ other.metadata.hash) :
    Filed options trace after := by
  obtain ⟨time, holds⟩ := filed
  refine ⟨time, fun file inside => differs.contents ?_ (holds file inside)⟩
  rintro ⟨other, among, path, own, same⟩
  have mine : file.1 ∈ paths options trace := by
    rw [← fst_files options time trace]
    exact List.mem_map_of_mem inside
  exact target_ne (apart other among) mine own same

/-- A tree has come to hold the files of traces, those of the last ones with their hashes. -/
structure Wrote (options : Options) (traces : List Trace) (tree after : FileTree) : Prop where
  differs : tree.Differs after (OnWay options tree traces) (OfFile options tree traces)
  filed : ∀ before trace later, traces = before ++ trace :: later →
    (∀ other ∈ later, trace.metadata.hash ≠ other.metadata.hash) → Filed options trace after

theorem Wrote.nil (options : Options) (tree : FileTree) : Wrote options [] tree tree :=
  ⟨.refl tree _ _, fun before trace later shape => by simp at shape⟩

theorem Wrote.cons {trace : Trace} {traces : List Trace}
    (written : (sinkOf (FileTree.clock times) options).write trace tree = (.ok (), between))
    (wrote : Wrote options traces between after) : Wrote options (trace :: traces) tree after := by
  obtain ⟨first, filed⟩ := filed_of_write written
  refine ⟨?_, fun before last later shape apart => ?_⟩
  · refine (first.mono (fun place reached => ?_) fun place here => ?_).trans
      (wrote.differs.mono (fun place reached => ?_) fun place here => ?_)
    · obtain ⟨_, inside, path, own, passes⟩ := reached
      rw [List.mem_singleton.mp inside] at own
      exact ⟨trace, List.mem_cons_self, path, own, passes⟩
    · obtain ⟨_, inside, path, own, same⟩ := here
      rw [List.mem_singleton.mp inside] at own
      exact ⟨trace, List.mem_cons_self, path, own, same⟩
    · obtain ⟨other, inside, path, own, passes⟩ := reached
      rw [FileTree.way_congr first.working] at passes
      exact ⟨other, List.mem_cons_of_mem _ inside, path, own, passes⟩
    · obtain ⟨other, inside, path, own, same⟩ := here
      rw [FileTree.target_congr first.working] at same
      exact ⟨other, List.mem_cons_of_mem _ inside, path, own, same⟩
  · cases before with
    | nil =>
        obtain ⟨rfl, rfl⟩ := List.cons.inj shape
        exact filed.stays wrote.differs apart
    | cons _ before => exact wrote.filed before last later (List.cons.inj shape).2 apart

end EvmTrace.Replay
