import PrismServe.Gateway.OutputBuffer

/-!
# The history of an output state

Updates, failures, reads and evictions come in any order.  A state object is
never given to another request, so that its history from creation to eviction is
the history of one reference.

Tokens only grow by extension and neither the terminal flag nor an error is ever
unset.  A terminal state is not sealed, however: a late update may still extend
its tokens or replace its error, and a late failure may add one.
-/

namespace PrismServe

open Lib

/-- The calls of the buffer. -/
inductive OutputCall
  | applyCumulative (reqId : String) (tokenIds : List Int) (outputSeqNo : Int) (terminal : Bool)
      (error : Option String) (stillCurrent : Bool)
  | fail (reqId error : String)
  | snapshot (reqId : String)
  | waitNext (reqId : String)
  | markResourceFree (reqId : String)
  deriving DecidableEq, Repr

namespace OutputBuffer

/-- The buffer that a method leaves behind, or the old one when it raises. -/
def orSelf (b : OutputBuffer) : Except Exc OutputBuffer → OutputBuffer
  | .ok b' => b'
  | .error _ => b

/-- The buffer after a call; a reader that waits leaves it to the writers. -/
def after (c : OutputCall) (b : OutputBuffer) : OutputBuffer :=
  match c with
  | .applyCumulative reqId tokenIds outputSeqNo terminal error stillCurrent =>
    (b.applyCumulative reqId tokenIds outputSeqNo terminal error stillCurrent).2
  | .fail reqId error => b.orSelf (b.fail reqId error)
  | .snapshot reqId => b.orSelf ((b.snapshot reqId).map (·.2))
  | .waitNext reqId => b.orSelf ((b.ensure reqId).map (·.2))
  | .markResourceFree reqId => b.orSelf (b.markResourceFree reqId)

def afterAll (calls : List OutputCall) (b : OutputBuffer) : OutputBuffer :=
  calls.foldl (fun b c => b.after c) b

end OutputBuffer

/-- The later state extends the earlier one. -/
structure OutputState.Extends (s t : OutputState) : Prop where
  tokenIds : s.tokenIds <+: t.tokenIds
  terminal : s.terminal = true → t.terminal = true
  error : s.error.isSome = true → t.error.isSome = true

/-- Neither tokens nor error have changed. -/
def OutputState.Same (s t : OutputState) : Prop := t.tokenIds = s.tokenIds ∧ t.error = s.error

/-- An update that raises, or that reports fewer tokens than are committed. -/
def OutputCall.refused (b : OutputBuffer) : OutputCall → Bool
  | .applyCumulative reqId tokenIds outputSeqNo terminal error stillCurrent =>
    (b.applyCumulative reqId tokenIds outputSeqNo terminal error stillCurrent).1.toOption.isNone ||
      (b.stateOf reqId).any fun s => decide (outputSeqNo < s.tokenIds.length)
  | _ => false

/-- A call that reaches a terminal state with more tokens, or with an error that it does
not have. -/
def OutputCall.late (b : OutputBuffer) : OutputCall → Bool
  | .applyCumulative reqId tokenIds outputSeqNo _ error stillCurrent =>
    stillCurrent && decide (outputSeqNo = tokenIds.length) && (b.stateOf reqId).any fun s =>
      s.terminal && decide (s.tokenIds <+: tokenIds) &&
        (decide (s.tokenIds ≠ tokenIds) || decide (orText error s.error ≠ s.error))
  | .fail reqId error => (b.stateOf reqId).any fun s =>
    s.terminal && decide (orText s.error (some error) ≠ s.error)
  | _ => false

/-- No call of a sequence is late when it is made. -/
def NoneLate : OutputBuffer → List OutputCall → Prop
  | _, [] => True
  | b, c :: rest => c.late b = false ∧ NoneLate (b.after c) rest

namespace OutputState

theorem Extends.refl (s : OutputState) : Extends s s := ⟨List.prefix_refl _, id, id⟩

theorem Extends.trans {s t u : OutputState} (h : Extends s t) (h' : Extends t u) : Extends s u :=
  ⟨h.tokenIds.trans h'.tokenIds, h'.terminal ∘ h.terminal, h'.error ∘ h.error⟩

theorem Same.refl (s : OutputState) : Same s s := ⟨rfl, rfl⟩

end OutputState

namespace OutputBuffer

variable {b b' : OutputBuffer} {reqId : String}

/-! ## What one call does to a state -/

theorem orText_isSome_right {a e : Option String} (h : e.isSome = true) :
    (orText a e).isSome = true := by
  unfold orText
  split
  · exact h
  · split
    · exact h
    · rfl

variable {ref : Nat} {tokenIds : List Int} {s : OutputState} {c : OutputCall}

theorem extends_commitTo (h : s.tokenIds <+: tokenIds) (terminal : Bool) (error : Option String) :
    s.Extends (commitTo tokenIds terminal error s) :=
  ⟨h, fun ht => by simp [commitTo, ht], orText_isSome_right⟩

theorem extends_failTo (error : String) (s : OutputState) : s.Extends (failTo error s) :=
  ⟨List.prefix_refl _, fun _ => rfl, fun _ => orText_isSome_right rfl⟩

/-- An update with the right number is committed when it extends what is there. -/
theorem applyTo_of_prefix (h : s.tokenIds <+: tokenIds) (terminal : Bool) (error : Option String) :
    ∃ changed, applyTo tokenIds tokenIds.length terminal error s =
      (.ok changed, commitTo tokenIds terminal error s) := by
  have hlength := h.length_le
  have htake : tokenIds.take s.tokenIds.length = s.tokenIds :=
    (List.prefix_iff_eq_take.mp h).symm
  unfold applyTo
  rw [if_neg (by omega), if_neg (not_not.mpr htake)]
  exact ⟨_, rfl⟩

theorem applyTo_of_not_prefix (h : ¬ s.tokenIds <+: tokenIds) (terminal : Bool)
    (error : Option String) : (applyTo tokenIds tokenIds.length terminal error s).2 = s := by
  unfold applyTo
  split
  · rfl
  · rw [if_pos]
    intro htake
    exact h (List.prefix_iff_eq_take.mpr htake.symm)

/-! ## What one call does to all states -/

theorem ensure_objects (h : b.ensure reqId = .ok (ref, b')) :
    ∀ r < b.nextRef, b'.objects r = b.objects r := by
  intro r hr
  rcases ensure_ok h with ⟨_, rfl⟩ | ⟨_, _, rfl⟩
  · rfl
  · simp [create, Function.update_of_ne hr.ne]

/-- A state object that was there when a request was looked up is that of the request. -/
theorem ensure_old (h : b.ensure reqId = .ok (ref, b')) (hold : ref < b.nextRef) :
    b.states.get? reqId = some ref ∧ b' = b := by
  rcases ensure_ok h with hfound | ⟨_, rfl, _⟩
  · exact hfound
  · exact absurd hold (Nat.lt_irrefl _)

theorem put_objects_of_ne {ref r : Nat} (h : r ≠ ref) (s : OutputState) :
    (b.put ref s).objects r = b.objects r := by
  simp [put, Function.update_of_ne h]

theorem put_objects_self (ref : Nat) (s : OutputState) : (b.put ref s).objects ref = s := by
  simp [put]

/-- A call changes the state object of its own request only: an update by an extension, and a
failure. -/
theorem after_objects (c : OutputCall) (h : ref < b.nextRef) :
    (b.after c).objects ref = b.objects ref ∨
      (∃ reqId tokenIds terminal error,
        c = .applyCumulative reqId tokenIds tokenIds.length terminal error true ∧
        b.states.get? reqId = some ref ∧ (b.objects ref).tokenIds <+: tokenIds ∧
        (b.after c).objects ref = commitTo tokenIds terminal error (b.objects ref)) ∨
      ∃ reqId error, c = .fail reqId error ∧ b.states.get? reqId = some ref ∧
        (b.after c).objects ref = failTo error (b.objects ref) := by
  cases c with
  | applyCumulative reqId tokenIds outputSeqNo terminal error stillCurrent =>
    simp only [after, applyCumulative]
    cases stillCurrent with
    | false =>
      exact .inl rfl
    | true =>
      cases hensure : b.ensure reqId with
      | error e =>
        exact .inl rfl
      | ok found =>
        obtain ⟨ref', b'⟩ := found
        have hsame := ensure_objects hensure ref h
        by_cases hlength : outputSeqNo = tokenIds.length
        · subst hlength
          by_cases hne : ref = ref'
          · subst hne
            obtain ⟨hget, rfl⟩ := ensure_old hensure h
            by_cases hbegins : (b'.objects ref).tokenIds <+: tokenIds
            · obtain ⟨changed, happly⟩ := applyTo_of_prefix hbegins terminal error
              refine .inr (.inl ⟨reqId, tokenIds, terminal, error, rfl, hget, hbegins, ?_⟩)
              simp [happly, put_objects_self]
            · left
              simp [put_objects_self, applyTo_of_not_prefix hbegins]
          · left
            simp [put_objects_of_ne hne, hsame]
        · left
          simp [hlength, hsame]
  | fail reqId error =>
    simp only [after, fail]
    cases hensure : b.ensure reqId with
    | error e =>
      exact .inl rfl
    | ok found =>
      obtain ⟨ref', b'⟩ := found
      by_cases hne : ref = ref'
      · subst hne
        obtain ⟨hget, rfl⟩ := ensure_old hensure h
        exact .inr (.inr ⟨reqId, error, rfl, hget, by simp [orSelf, put_objects_self]⟩)
      · left
        simp [orSelf, put_objects_of_ne hne, ensure_objects hensure ref h]
  | snapshot reqId =>
    left
    simp only [after, snapshot]
    cases hensure : b.ensure reqId with
    | error e =>
      rfl
    | ok found =>
      exact ensure_objects hensure ref h
  | waitNext reqId =>
    left
    simp only [after]
    cases hensure : b.ensure reqId with
    | error e =>
      rfl
    | ok found =>
      exact ensure_objects hensure ref h
  | markResourceFree reqId =>
    left
    simp only [after]
    cases hmark : b.markResourceFree reqId with
    | error e =>
      rfl
    | ok b' =>
      rcases markResourceFree_ok hmark with ⟨_, rfl⟩ | ⟨_, _, _, rfl⟩
      · rfl
      · rfl

theorem ensure_nextRef (h : b.ensure reqId = .ok (ref, b')) : b.nextRef ≤ b'.nextRef := by
  rcases ensure_ok h with ⟨_, rfl⟩ | ⟨_, _, rfl⟩
  · exact le_rfl
  · exact Nat.le_succ _

theorem after_nextRef (c : OutputCall) : b.nextRef ≤ (b.after c).nextRef := by
  cases c with
  | applyCumulative reqId tokenIds outputSeqNo terminal error stillCurrent =>
    simp only [after, applyCumulative]
    split
    · exact le_rfl
    cases hensure : b.ensure reqId with
    | error e =>
      exact le_rfl
    | ok found =>
      have hle := ensure_nextRef hensure
      dsimp only
      split
      · exact hle
      · exact hle
  | fail reqId error =>
    simp only [after, fail]
    cases hensure : b.ensure reqId with
    | error e =>
      exact le_rfl
    | ok found =>
      have hle := ensure_nextRef hensure
      exact hle
  | snapshot reqId =>
    simp only [after, snapshot]
    cases hensure : b.ensure reqId with
    | error e =>
      exact le_rfl
    | ok found =>
      exact ensure_nextRef hensure
  | waitNext reqId =>
    simp only [after]
    cases hensure : b.ensure reqId with
    | error e =>
      exact le_rfl
    | ok found =>
      exact ensure_nextRef hensure
  | markResourceFree reqId =>
    simp only [after]
    cases hmark : b.markResourceFree reqId with
    | error e =>
      exact le_rfl
    | ok b' =>
      rcases markResourceFree_ok hmark with ⟨_, rfl⟩ | ⟨_, _, _, rfl⟩
      · exact le_rfl
      · exact le_rfl

theorem after_extends (c : OutputCall) (h : ref < b.nextRef) :
    (b.objects ref).Extends ((b.after c).objects ref) := by
  rcases after_objects c h with hsame | ⟨_, _, _, _, _, _, hbegins, hnew⟩ | ⟨_, _, _, _, hnew⟩
  · rw [hsame]
    exact .refl _
  · rw [hnew]
    exact extends_commitTo hbegins _ _
  · rw [hnew]
    exact extends_failTo _ _

/-- Along a sequence of calls. -/
theorem afterAll_extends :
    ∀ (calls : List OutputCall) {b : OutputBuffer} {ref : Nat}, ref < b.nextRef →
      (b.objects ref).Extends ((b.afterAll calls).objects ref)
  | [], _, _, _ => .refl _
  | c :: rest, _, _, h =>
    (after_extends c h).trans (afterAll_extends rest (h.trans_le (after_nextRef c)))

/-! ## Updates that are refused, and updates that are late -/

theorem refused_same (hc : c.refused b = true) (h : ref < b.nextRef) :
    (b.after c).objects ref = b.objects ref := by
  rcases after_objects c h with
    hsame | ⟨reqId, tokenIds, terminal, error, rfl, hget, hbegins, _⟩ | ⟨_, _, rfl, _⟩
  · exact hsame
  · -- an update that is committed has returned and is no shorter
    obtain ⟨changed, happly⟩ := applyTo_of_prefix hbegins terminal error
    have hlength := hbegins.length_le
    simp [OutputCall.refused, applyCumulative, ensure_of_get? hget, happly, stateOf, hget,
      Except.toOption] at hc
    omega
  · cases hc

/-- A terminal state keeps its tokens and its error unless the call is late. -/
theorem same_of_not_late (hc : c.late b = false) (h : ref < b.nextRef)
    (hterminal : (b.objects ref).terminal = true) :
    (b.objects ref).Same ((b.after c).objects ref) := by
  rcases after_objects c h with
    hsame | ⟨reqId, tokenIds, terminal, error, rfl, hget, hbegins, hnew⟩ |
      ⟨reqId, error, rfl, hget, hnew⟩
  · rw [hsame]
    exact .refl _
  · rw [hnew]
    simp [OutputCall.late, stateOf, hget, hterminal, hbegins] at hc
    exact ⟨hc.1.symm, hc.2⟩
  · rw [hnew]
    simp [OutputCall.late, stateOf, hget, hterminal] at hc
    exact ⟨rfl, hc⟩

/-- A late call changes a terminal state. -/
theorem changes_of_late (hc : c.late b = true) :
    ∃ reqId ref, b.states.get? reqId = some ref ∧ (b.objects ref).terminal = true ∧
      ¬ (b.objects ref).Same ((b.after c).objects ref) := by
  cases c with
  | applyCumulative reqId tokenIds outputSeqNo terminal error stillCurrent =>
    simp only [OutputCall.late, Bool.and_eq_true, decide_eq_true_eq, Option.any_eq_true,
      Bool.or_eq_true] at hc
    obtain ⟨⟨rfl, rfl⟩, s, hs, ⟨hterminal, hbegins⟩, hdiffers⟩ := hc
    obtain ⟨ref, hget, rfl⟩ := Option.map_eq_some_iff.mp hs
    obtain ⟨changed, happly⟩ := applyTo_of_prefix hbegins terminal error
    refine ⟨reqId, ref, hget, hterminal, fun hsame => ?_⟩
    simp only [after, applyCumulative, ensure_of_get? hget, happly, put_objects_self,
      Bool.true_eq_false, if_false, ne_eq, not_true_eq_false] at hsame
    rcases hdiffers with hdiffers | hdiffers
    · exact hdiffers hsame.1.symm
    · exact hdiffers hsame.2
  | fail reqId error =>
    simp only [OutputCall.late, Bool.and_eq_true, decide_eq_true_eq, Option.any_eq_true] at hc
    obtain ⟨s, hs, hterminal, hdiffers⟩ := hc
    obtain ⟨ref, hget, rfl⟩ := Option.map_eq_some_iff.mp hs
    refine ⟨reqId, ref, hget, hterminal, fun hsame => ?_⟩
    simp only [after, fail, ensure_of_get? hget, orSelf, put_objects_self] at hsame
    exact hdiffers hsame.2
  | _ =>
    cases hc

theorem afterAll_same :
    ∀ (calls : List OutputCall) {b : OutputBuffer}, NoneLate b calls → ∀ {ref : Nat},
      ref < b.nextRef → (b.objects ref).terminal = true →
      (b.objects ref).Same ((b.afterAll calls).objects ref)
  | [], _, _, _, _, _ => .refl _
  | c :: rest, b, hlate, ref, h, hterminal => by
      have hfirst := same_of_not_late hlate.1 h hterminal
      have hrest := afterAll_same rest hlate.2 (h.trans_le (after_nextRef c))
        ((after_extends c h).terminal hterminal)
      exact ⟨hrest.1.trans hfirst.1, hrest.2.trans hfirst.2⟩

/-- From any buffer on, the state of a request only ever extends; an update that is refused changes
nothing; a call leaves tokens and error of the terminal states alone exactly when it is not late,
and so does a sequence of calls none of which is late. -/
theorem output_extends_and_settles (b : OutputBuffer) (calls : List OutputCall) (c : OutputCall) :
    (∀ ref < b.nextRef, (b.objects ref).Extends ((b.afterAll calls).objects ref)) ∧
      (c.refused b = true → ∀ ref < b.nextRef, (b.after c).objects ref = b.objects ref) ∧
      ((∀ reqId ref, b.states.get? reqId = some ref → (b.objects ref).terminal = true →
        (b.objects ref).Same ((b.after c).objects ref)) ↔ c.late b = false) ∧
      (NoneLate b calls → ∀ ref < b.nextRef, (b.objects ref).terminal = true →
        (b.objects ref).Same ((b.afterAll calls).objects ref)) := by
  refine ⟨fun ref h => afterAll_extends calls h, fun hc ref h => refused_same hc h, ⟨?_, ?_⟩,
    fun hlate ref h hterminal => afterAll_same calls hlate h hterminal⟩
  · intro hsame
    by_contra hlate
    obtain ⟨reqId, ref, hget, hterminal, hchanged⟩ :=
      changes_of_late (by simpa using hlate)
    exact hchanged (hsame reqId ref hget hterminal)
  · intro hlate reqId ref hget hterminal
    exact same_of_not_late hlate (b.ref_lt reqId ref hget) hterminal

/-- A finished stream gets another token and then an error. -/
theorem terminal_output_grows :
    let b := (empty 1 1 (by decide) (by decide)).afterAll
      [.applyCumulative "r" [1] 1 true none true]
    b.stateOf "r" = some ⟨[1], true, none⟩ ∧
      (b.afterAll [.applyCumulative "r" [1, 2] 2 false none true]).stateOf "r" =
        some ⟨[1, 2], true, none⟩ ∧
      (b.afterAll [.fail "r" "gateway shutdown"]).stateOf "r" =
        some ⟨[1], true, some "gateway shutdown"⟩ := by
  decide

end OutputBuffer

end PrismServe
