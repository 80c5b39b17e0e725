import EvmTrace.Proofs.Document.Decoding
import EvmTrace.Proofs.Recording.Readable
import EvmTrace.Proofs.Recording.Undeclared
import EvmTrace.Proofs.Store.Counterparts
import EvmTrace.Proofs.Text.Utf8
import EvmTrace.Replay

/-!
Replays of a recording and of the same recording with more members that nothing is read from. Both
have the same transactions, so both runs meet with the same answers in trees that differ in contents
only, and they write the same files but for the times of the documents.
-/

set_option autoImplicit false

namespace EvmTrace

namespace Recording

/-- A file holds the text of a JSON value. -/
def Holds (content : Bytes) (json : Json) : Prop :=
  ∃ text, Text.decode? content = some text ∧ Json.read? text = some json

theorem ofBytes_of_holds {content : Bytes} {json : Json} (holds : Holds content json) :
    ofBytes content = ofJson json := by
  obtain ⟨text, decoded, parsed⟩ := holds
  rw [ofBytes, decoded]
  dsimp only
  rw [parsed]

end Recording

open FileTree (Agree)

section Sink

variable {Related : Place → Bytes → Bytes → Prop} {sink sink' : Sink (StateM FileTree)}

theorem Sink.agree_deliver
    (agree : ∀ trace, Agree Related (sink.write trace) (sink'.write trace)) (trace : Trace) :
    Agree Related (sink.deliver trace) (sink'.deliver trace) := by
  refine .bind (agree trace) fun written => ?_
  split <;> exact .pure _

theorem Session.agree_replay
    (agree : ∀ trace, Agree Related (sink.write trace) (sink'.write trace)) (session : Session)
    (transaction : Transaction) :
    Agree Related (session.replay transaction sink) (session.replay transaction sink') := by
  unfold Session.replay
  split
  · exact .pure _
  · split
    · exact .bind (Sink.agree_deliver agree _) fun outcome => .pure _
    · exact .pure _
    · exact .pure _
    · exact .pure _

theorem Replay.agree_replayAll
    (agree : ∀ trace, Agree Related (sink.write trace) (sink'.write trace)) (options : Options)
    (transactions : List Transaction) (session : Session) (result : Result) :
    Agree Related (replayAll options sink session result transactions)
      (replayAll options sink' session result transactions) := by
  induction transactions generalizing session result with
  | nil => exact .pure _
  | cons transaction rest ih =>
      refine .bind (Session.agree_replay agree session transaction) fun replayed => ?_
      split
      · exact .pure _
      · exact ih _ _

end Sink

namespace Replay

/--
Contents of a file after two runs: the same, documents that agree in all but the time of their making,
or the recordings that were replayed, in their place.
-/
inductive Comparable (input : Place) (recorded recorded' : Bytes) : Place → Bytes → Bytes → Prop
  | same (place : Place) (content : Bytes) : Comparable input recorded recorded' place content content
  | documents (place : Place) {document document' : Document}
      (same : document'.undated = document.undated) :
      Comparable input recorded recorded' place (Text.encode document.print)
        (Text.encode document'.print)
  | recordings : Comparable input recorded recorded' input recorded recorded'

/-- The ends of the transactions of a recording, if it is read, each replayed with a new session. -/
def outcomes (now : StateM FileTree String) (options : Options) :
    StateM FileTree (Except Recording.Error (List (Except Session.Error Outcome))) := do
  match ← Recording.load options.input with
  | .error reason => pure (.error reason)
  | .ok transactions =>
    .ok <$> transactions.mapM fun transaction =>
      Prod.fst <$> (Session.new options.config).replay transaction (sinkOf now options)

variable {input : Place} {recorded recorded' : Bytes}

theorem agree_write (times times' : FileTree → String) (options : Options) (trace : Trace) :
    Agree (Comparable input recorded recorded')
      ((sinkOf (FileTree.clock times) options).write trace)
      ((sinkOf (FileTree.clock times') options).write trace) := by
  cases format : options.format with
  | documents =>
      rw [sinkOf, sinkOf, format]
      -- The clocks do not agree, so the writing is compared after they have been asked.
      intro tree other counterpart
      exact Store.agree_writeDocument _ (fun place => .documents place rfl) tree other counterpart
  | tables =>
      rw [sinkOf, sinkOf, format]
      exact Store.agree_writeTables .same _ trace

section Runs

variable {tree tree' : FileTree} {options : Options}
  (counterpart : tree.Counterpart (Comparable input recorded recorded') tree')
  (same : ((Recording.load options.input : StateM FileTree _) tree').1 =
    ((Recording.load options.input : StateM FileTree _) tree).1)

include counterpart same

/-- What goes on alike after the same transactions were read comes to the same end. -/
theorem agree_load {α : Type}
    {next next' : Except Recording.Error (List Transaction) → StateM FileTree α}
    (agree : ∀ loaded, Agree (Comparable input recorded recorded') (next loaded) (next' loaded)) :
    let ended := (Recording.load options.input >>= next) tree
    let ended' := (Recording.load options.input >>= next') tree'
    ended'.1 = ended.1 ∧ ended.2.Counterpart (Comparable input recorded recorded') ended'.2 := by
  rw [FileTree.bind_apply, FileTree.bind_apply, same, Recording.load_apply, Recording.load_apply]
  exact agree _ _ _ counterpart

theorem run_of_counterpart (times times' : FileTree → String) :
    let ended := run (FileTree.clock times) options tree
    let ended' := run (FileTree.clock times') options tree'
    ended'.1 = ended.1 ∧ ended.2.Counterpart (Comparable input recorded recorded') ended'.2 := by
  refine agree_load counterpart same fun loaded => ?_
  split
  · exact .pure _
  · refine .bind (agree_replayAll (agree_write times times' options) options _ _ _) fun ended => ?_
    split <;> exact .pure _

theorem outcomes_of_counterpart (times times' : FileTree → String) :
    (outcomes (FileTree.clock times') options tree').1 =
      (outcomes (FileTree.clock times) options tree).1 := by
  refine (agree_load counterpart same fun loaded => ?_).1
  split
  · exact .pure _
  · refine .map _ (.mapM (fun transaction => .map _ ?_) _)
    exact Session.agree_replay (agree_write times times' options) _ transaction

end Runs

/--
Members that nothing is read from make no difference. However many of them are put into the
transactions of a recording and into their events, the same transactions are read, or the same error
says why not. A run over a file with the one recording and a run in which the other is stored in its
place, whatever the clocks show, have the same result, each transaction comes to the same end, and
the trees that are left differ in the times of documents only, apart from the recordings themselves.
-/
theorem undeclared_members_make_no_difference {json wide : Json}
    (widened : Recording.Widened json wide) :
    Recording.ofJson wide = Recording.ofJson json ∧
    ∀ (options : Options) (times times' : FileTree → String) (tree tree' : FileTree)
      (content content' : Bytes),
      tree.contents options.input = .ok content → Recording.Holds content json →
      tree.store options.input content' = (.ok (), tree') → Recording.Holds content' wide →
      let ended := run (FileTree.clock times) options tree
      let ended' := run (FileTree.clock times') options tree'
      ended'.1 = ended.1 ∧
        (outcomes (FileTree.clock times') options tree').1 =
          (outcomes (FileTree.clock times) options tree).1 ∧
        ended.2.Counterpart (Comparable (tree.target options.input) content content') ended'.2 := by
  have alike := Recording.ofJson_of_widened widened
  refine ⟨alike, fun options times times' tree tree' content content' held holds stored holds' => ?_⟩
  have counterpart : tree.Counterpart
      (Comparable (tree.target options.input) content content') tree' :=
    .of_store .same held stored .recordings
  have same : ((Recording.load options.input : StateM FileTree _) tree').1 =
      ((Recording.load options.input : StateM FileTree _) tree).1 := by
    rw [Recording.load_apply, Recording.load_apply, held, FileTree.contents_store stored]
    dsimp only
    rw [Recording.ofBytes_of_holds holds, Recording.ofBytes_of_holds holds', alike]
  obtain ⟨ended, left⟩ := run_of_counterpart counterpart same times times'
  exact ⟨ended, outcomes_of_counterpart counterpart same times times', left⟩

/-- A transaction with one step has a note in itself and one in its step, and the clock goes on. -/
theorem notes_make_no_difference :
    let text := fun note noteOfStep : String =>
      String.ofList ("[\x7b".toList ++ note.toList ++ "\"txHash\":\"".toList ++
        List.replicate 64 '0' ++ "\",\"blockNumber\":1,\"from\":\"".toList ++
        List.replicate 40 '0' ++ "\",\"events\":[\x7b".toList ++ noteOfStep.toList ++
        "\"type\":\"op\",\"pc\":0,\"depth\":1,\"opcode\":\"STOP\",".toList ++
        "\"gas\":9,\"cost\":0\x7d]\x7d]".toList)
    let json := fun note noteOfStep : List (String × Json) =>
      Json.array [.object ([("blockNumber", .int 1),
        ("events", .array [.object ([("cost", .int 0), ("depth", .int 1), ("gas", .int 9)] ++
          noteOfStep ++ [("opcode", .string "STOP"), ("pc", .int 0), ("type", .string "op")])]),
        ("from", .string (String.ofList (List.replicate 40 '0')))] ++ note ++
        [("txHash", .string (String.ofList (List.replicate 64 '0')))])]
    let plain := json [] []
    let noted := json [("note", .object [("to", .null)])] [("note", .array [.int 7])]
    let content := Text.encode (text "" "")
    let content' := Text.encode (text "\"note\":\x7b\"to\":null\x7d," "\"note\":[7],")
    let options : Options := { input := "in.json", directory := "out" }
    let tree := fun content : Bytes => (⟨[], [(["in.json"], .file content)]⟩ : FileTree)
    let metadata : Metadata :=
      { block := 1, hash := .zero 32, sender := .zero 20, recipient := none, value := 0
        gasPrice := 0, gasUsed := 0 }
    let step : Step := { pc := 0, depth := 1, opcode := "STOP", gas := 9, cost := 0, output := "" }
    Recording.Widened plain noted ∧
      Recording.ofJson noted = .ok [{ metadata, events := [.step step] }] ∧
      (tree content).contents options.input = .ok content ∧ Recording.Holds content plain ∧
      (tree content).store options.input content' = (.ok (), tree content') ∧
      Recording.Holds content' noted ∧
      (run (FileTree.clock fun _ => "later") options (tree content')).1 =
        (run (FileTree.clock fun _ => "now") options (tree content)).1 := by
  intro text json plain noted content content' options tree metadata step
  have widened : Recording.Widened plain noted := by
    refine .array (.cons (.object ?_) .nil)
    refine .keep (.same _ _) (.keep (.events (.cons (.object ?_) .nil)) (.keep (.same _ _) (.add _ ?_
      (.keep (.same _ _) .nil))))
    · refine .keep rfl (.keep rfl (.keep rfl (.add _ ?_ (.keep rfl (.keep rfl (.keep rfl .nil))))))
      decide
    · decide
  have allowed : FileTree.badPath? "in.json" = none := by decide
  have parts : Text.split '/' "in.json" = ["in.json"] := by decide
  have openEnded : Path.endsWithSlash "in.json" = false := by decide
  have held : (tree content).contents "in.json" = .ok content := by
    rw [FileTree.contents, FileTree.find, FileTree.locate, allowed, parts]
    rfl
  have stored : (tree content).store "in.json" content' = (.ok (), tree content') := by
    rw [FileTree.store, FileTree.locateNew, allowed, Path.withoutTrailingSlashes_eq _ openEnded,
      parts, openEnded]
    rfl
  have holds : Recording.Holds content plain := by
    refine ⟨_, Text.decode?_encode _, ?_⟩
    rw [Json.read?, String.toList_ofList]
    simp only [String.reduceToList]
    rfl
  have holds' : Recording.Holds content' noted := by
    refine ⟨_, Text.decode?_encode _, ?_⟩
    rw [Json.read?, String.toList_ofList]
    simp only [String.reduceToList]
    rfl
  have read : Recording.ofJson plain = .ok [{ metadata, events := [.step step] }] := by
    decide +kernel
  obtain ⟨alike, runs⟩ := undeclared_members_make_no_difference widened
  exact ⟨widened, alike.trans read, held, holds, stored, holds',
    (runs options _ _ _ _ _ _ held holds stored holds').1⟩

end Replay

end EvmTrace
