import PrismServe.Worldctl.PodWatch

/-!
# Reading back a flattened watch event

The fields of an event are joined by tabs and split at tabs.  A field that has a
tab in it makes more pieces than there are fields, and no accepted shape has more
than twenty; so the event is read back as it was exactly when none of its fields
has a tab, and is refused otherwise.
-/

namespace PrismServe.Worldctl.Watch

open Lib

theorem splitTabs_ne_nil (s : String) : splitTabs s ≠ [] := by
  simp [splitTabs, List.splitOn_ne_nil]

/-- A text with a tab is split into two pieces at least. -/
theorem one_lt_length_splitTabs {s : String} (h : '\t' ∈ s.toList) : 1 < (splitTabs s).length := by
  obtain ⟨a, b, hab⟩ := List.append_of_mem h
  rw [splitTabs, hab, List.splitOn_append_cons_self, List.map_append, List.length_append]
  have ha := List.length_pos_iff.mpr (List.splitOn_ne_nil '\t' a)
  have hb := List.length_pos_iff.mpr (List.splitOn_ne_nil '\t' b)
  rw [List.length_map, List.length_map]
  omega

/-- A text without a tab is one piece. -/
theorem splitTabs_of_not_mem {s : String} (h : '\t' ∉ s.toList) : splitTabs s = [s] := by
  have hsplit : (List.intercalate ['\t'] [s.toList]).splitOn '\t' = [s.toList] :=
    List.splitOn_intercalate '\t' (by simpa using h) (by simp)
  rw [List.intercalate_singleton] at hsplit
  simp [splitTabs, hsplit]

/-- Joined texts are split into the pieces of each. -/
theorem splitTabs_joinTabs {l : List String} (hl : l ≠ []) :
    splitTabs (joinTabs l) = l.flatMap splitTabs := by
  induction l with
  | nil =>
    exact absurd rfl hl
  | cons s rest ih =>
    cases rest with
    | nil =>
      simp [splitTabs, joinTabs]
    | cons t rest =>
      have hrest := ih (by simp)
      simp only [splitTabs, joinTabs, List.map_cons, String.toList_ofList] at hrest ⊢
      rw [List.intercalate_cons_cons, List.append_assoc, List.singleton_append,
        List.splitOn_append_cons_self, List.map_append, hrest]
      rfl

theorem length_le_flatMap_splitTabs (l : List String) :
    l.length ≤ (l.flatMap splitTabs).length := by
  induction l with
  | nil =>
    simp
  | cons s rest ih =>
    have hs := List.length_pos_iff.mpr (splitTabs_ne_nil s)
    rw [List.flatMap_cons, List.length_append, List.length_cons]
    omega

/-- A tab in one of the texts makes a piece too many. -/
theorem length_lt_flatMap_splitTabs {l : List String} {s : String} (hs : s ∈ l)
    (h : '\t' ∈ s.toList) : l.length < (l.flatMap splitTabs).length := by
  obtain ⟨a, b, rfl⟩ := List.append_of_mem hs
  have ha := length_le_flatMap_splitTabs a
  have hb := length_le_flatMap_splitTabs b
  have hpieces := one_lt_length_splitTabs h
  simp only [List.flatMap_append, List.flatMap_cons, List.length_append, List.length_cons]
  omega

/-- Texts without tabs are read back. -/
theorem splitTabs_joinTabs_of_not_mem {l : List String} (hl : l ≠ [])
    (h : ∀ s ∈ l, '\t' ∉ s.toList) : splitTabs (joinTabs l) = l := by
  rw [splitTabs_joinTabs hl]
  clear hl
  induction l with
  | nil =>
    rfl
  | cons s rest ih =>
    rw [List.forall_mem_cons] at h
    rw [List.flatMap_cons, splitTabs_of_not_mem h.1, ih h.2, List.singleton_append]

/-! ## Events -/

variable {value member : String} {fields : WatchFields}

theorem parseWatchEvent_of_split (h : splitTabs value = fields.toList) :
    parseWatchEvent value member = .ok fields := by
  unfold parseWatchEvent
  rw [h]
  rfl

/-- No shape has more than twenty fields. -/
theorem parseWatchEvent_of_long (h : 20 < (splitTabs value).length) :
    parseWatchEvent value member = .error (malformed member) := by
  unfold parseWatchEvent
  split
  · rename_i hsplit
    rw [hsplit] at h
    simp at h
  · rename_i hsplit
    rw [hsplit] at h
    simp at h
  · rename_i hsplit
    rw [hsplit] at h
    simp at h
  · rfl

theorem parseWatchEvent_joinTabs (fields : WatchFields) (member : String) :
    parseWatchEvent (joinTabs fields.toList) member =
      if ∀ text ∈ fields.toList, '\t' ∉ text.toList then .ok fields
      else .error (malformed member) := by
  have hne : fields.toList ≠ [] := by simp [WatchFields.toList]
  split
  · rename_i h
    exact parseWatchEvent_of_split (splitTabs_joinTabs_of_not_mem hne h)
  rename_i h
  push Not at h
  obtain ⟨text, htext, htab⟩ := h
  refine parseWatchEvent_of_long ?_
  rw [splitTabs_joinTabs hne]
  exact length_lt_flatMap_splitTabs htext htab

/-- An event that is no error is read back as it was exactly when none of its fields has a tab. -/
theorem watch_event_round_trip_iff (cfg : WatchSettings) (value member : String)
    (fields : WatchFields) (h : watchedFields cfg value member = .ok (some fields)) :
    ∃ normalized, normalizeRawWatchEvent cfg value member = .ok normalized ∧
      (parseWatchEvent normalized member = .ok fields ↔
        ∀ text ∈ fields.toList, '\t' ∉ text.toList) := by
  refine ⟨joinTabs fields.toList, ?_, ?_⟩
  · simp [normalizeRawWatchEvent, h]
  · rw [parseWatchEvent_joinTabs]
    split
    · rename_i hall
      exact iff_of_true rfl hall
    · rename_i hall
      exact iff_of_false (by simp) hall

/-! ## A termination with a message -/

/-- A watch whose documents are all the event of a terminated worker with the message. -/
def messageSettings (message : String) : WatchSettings where
  loads := fun _ => some (.object [("type", .string "MODIFIED"), ("object", .object [
    ("metadata", .object [("uid", .string "pod"), ("resourceVersion", .string "7")]),
    ("spec", .object [("nodeName", .string "node")]),
    ("status", .object [("containerStatuses", .array [.object [
      ("name", .string "worker"), ("containerID", .string "container"),
      ("restartCount", .integer 0),
      ("state", .object [("terminated", .object [("containerID", .string "container"),
        ("exitCode", .integer 1), ("message", .string message)])])]])])])])
  toText := fun _ => ""
  parseInt := fun _ => none
  digest := ⟨id, fun _ => []⟩

/-- The fields of that event. -/
def messageFields (message : String) : WatchFields :=
  ⟨"MODIFIED", "pod", "node", "container", "0", "container", "1", "", "", message, "", "", "", "",
    "", "", "", "", "", "7"⟩

theorem watchedFields_message (message : String) :
    watchedFields (messageSettings message) "" "p0" = .ok (some (messageFields message)) := rfl

/-- A message without a tab is read back. -/
theorem watch_event_round_trip_killed :
    ∃ normalized, normalizeRawWatchEvent (messageSettings "killed") "" "p0" = .ok normalized ∧
      parseWatchEvent normalized "p0" = .ok (messageFields "killed") := by
  obtain ⟨normalized, hnormalized, hiff⟩ :=
    watch_event_round_trip_iff _ "" "p0" _ (watchedFields_message "killed")
  exact ⟨normalized, hnormalized, hiff.mpr (by decide)⟩

/-- A message with a tab makes the event unreadable. -/
theorem tab_in_message_refused :
    ∃ normalized, normalizeRawWatchEvent (messageSettings "a\tb") "" "p0" = .ok normalized ∧
      parseWatchEvent normalized "p0" =
        .error (.runtimeError "malformed Pod watch event for p0") := by
  refine ⟨joinTabs (messageFields "a\tb").toList, rfl, ?_⟩
  rw [parseWatchEvent_joinTabs, if_neg (by decide)]
  rfl

end PrismServe.Worldctl.Watch
