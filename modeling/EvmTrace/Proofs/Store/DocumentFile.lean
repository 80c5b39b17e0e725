import EvmTrace.Proofs.Disk.Storing
import EvmTrace.Proofs.Document.Reading
import EvmTrace.Store

set_option autoImplicit false

namespace EvmTrace.Store

variable {tree after : FileTree}

theorem stored_of_writeText {path text : String}
    (written : (writeText path text : StateM FileTree _) tree = (.ok (), after)) :
    tree.store path (Text.encode text) = (.ok (), after) := by
  rw [writeText, FileTree.bind_apply, FileTree.store_apply] at written
  cases stored : tree.store path (Text.encode text) with
  | mk result next =>
      rw [stored] at written
      cases result with
      | error e => cases written
      | ok done =>
          cases written
          rfl

/-- The last thing that is done to write a document is to store its text. -/
theorem stored_of_writeDocument {document : Document} {path : String}
    (written : (writeDocument document path : StateM FileTree _) tree = (.ok (), after)) :
    ∃ between : FileTree,
      between.store path (Text.encode document.print) = (.ok (), after) := by
  unfold writeDocument at written
  split at written
  · cases written
  · rw [FileTree.bind_apply, FileTree.isDirectory_apply] at written
    cases directory : tree.isDirectory path with
    | true =>
        rw [directory] at written
        cases written
    | false =>
        simp only [directory, Bool.false_eq_true, ↓reduceIte, FileTree.bind_apply] at written
        cases made : (makeParent path : StateM FileTree _) tree with
        | mk result between =>
            rw [made] at written
            cases result with
            | error e => cases written
            | ok done => exact ⟨between, stored_of_writeText written⟩

theorem contents_of_writeDocument {document : Document} {path : String}
    (written : (writeDocument document path : StateM FileTree _) tree = (.ok (), after)) :
    after.contents path = .ok (Text.encode document.print) := by
  obtain ⟨between, stored⟩ := stored_of_writeDocument written
  exact FileTree.contents_store stored

theorem readDocument_of_contents {document : Document} {path : String}
    (found : tree.contents path = .ok (Text.encode document.print)) :
    (readDocument path : StateM FileTree _) tree = (.ok document, tree) := by
  have read := document.ofBytes?_print
  rw [readDocument, FileTree.bind_apply, FileTree.contents_apply, found]
  simp only [read, FileTree.pure_apply]

/-- A document is read from the file that it was written to, on every tree and at every path. -/
theorem document_written_is_read (document : Document) (path : String) (tree after : FileTree)
    (written : (writeDocument document path : StateM FileTree _) tree = (.ok (), after)) :
    (readDocument path : StateM FileTree _) after = (.ok document, after) :=
  readDocument_of_contents (contents_of_writeDocument written)

/--
The texts hold quotes, backslashes, control characters, line breaks and characters of all lengths,
and another file stood at the path.
-/
theorem document_over_another_file_is_read :
    let document : Document :=
      { version := "1.0.0", block := "", hash := "\"\"", sender := "\\n\\", recipient := "/"
        value := "\x00\x1f\x7f", gasPrice := "\x08\x0c\t", gasUsed := "\r\n"
        steps := "pc\n\"a\nb\"", calls := "é", logs := "\u2028", transfers := "😀", generatedAt := "" }
    let tree : FileTree :=
      ⟨["home"], [(["home"], .directory), (["home", "a.json"], .file [123, 0])]⟩
    ∃ after, (writeDocument document "new/../a.json" : StateM FileTree _) tree = (.ok (), after) ∧
      (readDocument "new/../a.json" : StateM FileTree _) after = (.ok document, after) := by
  intro document tree
  let wrote := (writeDocument document "new/../a.json" : StateM FileTree _) tree
  have accepted : wrote.1 = .ok () := by decide +kernel
  have written : (writeDocument document "new/../a.json" : StateM FileTree _) tree =
      (.ok (), wrote.2) := Prod.ext accepted rfl
  exact ⟨wrote.2, written, document_written_is_read document "new/../a.json" tree wrote.2 written⟩

end EvmTrace.Store
