import Mathlib.Data.List.Induction
import Rostrum.Proofs.Rpc.Exchange

/-!
# Calls get their own answers

Main statement: however the steps of callers, of the engine and of the connection interleave, numbers
are given once, a call returns at most once, and what the engine says reaches the one call that waits
for it. When the connection ends, the calls that wait fail, and so do all later ones.

Numbers are counted without bound. As they never exceed the number of calls, a counter of 64 bits
gives the same ones to the first 2 ^ 64 - 1 calls.
-/

namespace Rostrum.Rpc.Exchange

variable {L : Type} {e : Exchange L} {a : Action L} {k id : Nat} {q : Inquiry L} {n : Option Nat}
  {outcome : Except EngineFault Json} {acts : List (Action L)}

/-- Where a returned outcome comes from. -/
theorem mem_returns_perform (h : (k, outcome) ∈ (e.perform a).returns) :
    (k, outcome) ∈ e.returns ∨ outcome = .error Client.lost ∨
      (e.client.connected ∧ outcome = .error Client.silent) ∨
      ∃ q n, e.calls[k]? = some ⟨q, n, .told outcome⟩ := by
  have hp := e.perform_performs a
  generalize e.perform a = e' at hp h
  cases hp with
  | refused hask =>
    rcases List.mem_append.mp h with h | h
    · exact .inl h
    · cases List.mem_singleton.mp h
      rcases Client.ask_error hask with ⟨hconn, rfl, _⟩ | ⟨_, rfl, _⟩
      · exact .inr (.inr (.inl ⟨hconn, rfl⟩))
      · exact .inr (.inl rfl)
  | resumed hget =>
    rcases List.mem_append.mp h with h | h
    · exact .inl h
    · cases List.mem_singleton.mp h
      exact .inr (.inr (.inr ⟨_, _, hget⟩))
  | _ => exact .inl h

theorem returns_perform (a : Action L) : ∃ more, (e.perform a).returns = e.returns ++ more := by
  have hp := e.perform_performs a
  generalize e.perform a = e' at hp
  cases hp with
  | refused _ => exact ⟨_, rfl⟩
  | resumed _ => exact ⟨_, rfl⟩
  | _ => exact ⟨[], (List.append_nil _).symm⟩

/-- How a call that waits is told its outcome. -/
inductive Tells (id : Nat) : Action L → Except EngineFault Json → Prop where
  | answer {text : String} {result : Except RemoteError Json} :
      Incoming.ofText? text = some (.answer id result) →
      Tells id (.receive text) (result.mapError RemoteError.toFault)
  | lost : Tells id .lose (.error Client.lost)

theorem told_tell {ids : List Nat} (w : e.Sound) (hids : ∀ id ∈ ids, id ∈ e.client.pending)
    {outcome' : Except EngineFault Json}
    (h : (e.calls.map (CallRecord.tell ids outcome'))[k]? = some ⟨q, n, .told outcome⟩) :
    e.calls[k]? = some ⟨q, n, .told outcome⟩ ∨
      (outcome = outcome' ∧ ∃ id ∈ ids, e.Waits k id) := by
  rw [List.getElem?_map, Option.map_eq_some_iff] at h
  obtain ⟨call, hget, htell⟩ := h
  rcases tell_cases ids outcome' call with ⟨id, hmem, hn, h⟩ | ⟨_, h⟩
  · obtain ⟨q', n', standing⟩ := call
    obtain rfl : n' = some id := hn
    obtain ⟨k', q'', hwaits⟩ := (w.pending id).mp (hids id hmem)
    obtain rfl := w.unique hget hwaits
    cases htell.symm.trans h
    exact .inr ⟨rfl, id, hmem, q'', hwaits⟩
  · obtain rfl := h.symm.trans htell
    exact .inl hget

theorem told_set {k' : Nat} {call call' : CallRecord L} {o : Except EngineFault Json}
    (hget : e.calls[k']? = some call) (hs : call'.standing = .returned ∨ call'.standing = .givenUp)
    (h : (e.calls.set k' call')[k]? = some ⟨q, n, .told o⟩) :
    e.calls[k]? = some ⟨q, n, .told o⟩ := by
  rw [getElem?_set_of_some hget] at h
  split at h
  · cases h
    rcases hs with hs | hs <;> cases hs
  · exact h

theorem told_perform (w : e.Sound) (h : (e.perform a).calls[k]? = some ⟨q, n, .told outcome⟩) :
    e.calls[k]? = some ⟨q, n, .told outcome⟩ ∨ ∃ id, e.Waits k id ∧ Tells id a outcome := by
  have hp := e.perform_performs a
  generalize e.perform a = e' at hp h
  cases hp with
  | sent _ =>
    rcases getElem?_concat.mp h with h | ⟨_, h⟩
    · exact .inl h
    · cases h
  | refused _ =>
    rcases getElem?_concat.mp h with h | ⟨_, h⟩
    · exact .inl h
    · cases h
  | answered ht hmem _ =>
    have hids : ∀ id ∈ [_], id ∈ e.client.pending := fun id hid => List.mem_singleton.mp hid ▸ hmem
    rcases told_tell w hids h with h | ⟨rfl, id, hid, hwaits⟩
    · exact .inl h
    · obtain rfl := List.mem_singleton.mp hid
      exact .inr ⟨id, hwaits, .answer ht⟩
  | resumed hget => exact .inl (told_set hget (.inl rfl) h)
  | cancelled hget _ => exact .inl (told_set hget (.inr rfl) h)
  | lost =>
    rcases told_tell w (fun _ hid => hid) h with h | ⟨rfl, id, _, hwaits⟩
    · exact .inl h
    · exact .inr ⟨id, hwaits, .lost⟩
  | ignored _ => exact .inl h
  | stuck _ => exact .inl h
  | settled _ => exact .inl h
  | silent => exact .inl h

/-- Nobody is told anything who does not wait. -/
theorem getElem?_tell {ids : List Nat} {standing : Standing} (w : e.Sound)
    (hids : ∀ id ∈ ids, id ∈ e.client.pending) (outcome' : Except EngineFault Json)
    (h : e.calls[k]? = some ⟨q, n, standing⟩) (hs : standing ≠ .waiting) :
    (e.calls.map (CallRecord.tell ids outcome'))[k]? = some ⟨q, n, standing⟩ := by
  have hnot : ∀ id, n = some id → id ∉ ids := by
    rintro id rfl hid
    exact w.notPending h hs (hids id hid)
  rw [List.getElem?_map, h, Option.map_some, tell_of_notMem hnot]

/-- A caller that was told keeps its outcome until it goes on or gives up. -/
theorem told_stays (w : e.Sound) (h : e.calls[k]? = some ⟨q, some id, .told outcome⟩)
    (ha : a ≠ .cancel k) :
    (e.perform a).calls[k]? = some ⟨q, some id, .told outcome⟩ ∨
      (e.perform a).calls[k]? = some ⟨q, some id, .returned⟩ ∧ (k, outcome) ∈ (e.perform a).returns := by
  have hp := e.perform_performs a
  generalize e.perform a = e' at hp
  cases hp with
  | sent _ => exact .inl (getElem?_concat.mpr (.inl h))
  | refused _ => exact .inl (getElem?_concat.mpr (.inl h))
  | answered _ hmem _ =>
    have hids : ∀ id ∈ [_], id ∈ e.client.pending := fun id hid => List.mem_singleton.mp hid ▸ hmem
    exact .inl (getElem?_tell w hids _ h nofun)
  | @resumed k' _ _ _ hget =>
    by_cases hk : k' = k
    · obtain rfl := hk
      cases h.symm.trans hget
      exact .inr ⟨(getElem?_set_of_some hget _).trans (if_pos rfl), List.mem_append_right _ List.mem_cons_self⟩
    · exact .inl (by rw [getElem?_set_of_some hget, if_neg hk, h])
  | @cancelled k' _ _ _ hget _ =>
    have hk : k' ≠ k := fun heq => ha (congrArg Action.cancel heq)
    exact .inl (by rw [getElem?_set_of_some hget, if_neg hk, h])
  | lost => exact .inl (getElem?_tell w (fun _ hid => hid) _ h nofun)
  | ignored _ => exact .inl h
  | stuck _ => exact .inl h
  | settled _ => exact .inl h
  | silent => exact .inl h

/-- A caller that goes on with its outcome returns it. -/
theorem resume_of_told (h : e.calls[k]? = some ⟨q, some id, .told outcome⟩) :
    (k, outcome) ∈ (e.perform (.resume k)).returns := by
  simp only [perform, resume, h]
  exact List.mem_append_right _ List.mem_cons_self

theorem connected_perform (hlost : e.client.connected = false) (a : Action L) :
    (e.perform a).client.connected = false := by
  have hp := e.perform_performs a
  generalize e.perform a = e' at hp
  cases hp with
  | sent hask =>
    obtain ⟨hconn, _⟩ := Client.ask_ok hask
    exact absurd (hconn.symm.trans hlost) (nofun : ¬ true = false)
  | @refused _ _ c hask =>
    have hc : c.connected = e.client.connected := by
      rcases Client.ask_error hask with ⟨_, _, hbooks⟩ | ⟨_, _, hbooks⟩
      · exact congrArg Books.connected hbooks
      · exact congrArg Books.connected hbooks
    exact hc.trans hlost
  | @resumed _ id q outcome _ =>
    have hbooks := Client.books_settle (c := e.client) id outcome q
    exact (congrArg Books.connected hbooks).trans hlost
  | lost => rfl
  | _ => exact hlost

/-- A caller that asks without a connection fails at once; nothing is numbered, sent or waited for. -/
theorem ask_of_lost (hlost : e.client.connected = false) (q : Inquiry L) :
    (e.perform (.ask q)).sent = e.sent ∧ (e.perform (.ask q)).client.books = e.client.books ∧
      (e.perform (.ask q)).returns = e.returns ++ [(e.calls.length, .error Client.lost)] := by
  have hp := e.perform_performs (.ask q)
  generalize e.perform (.ask q) = e' at hp
  cases hp with
  | sent hask =>
    obtain ⟨hconn, _⟩ := Client.ask_ok hask
    exact absurd (hconn.symm.trans hlost) (nofun : ¬ true = false)
  | refused hask =>
    rcases Client.ask_error hask with ⟨hconn, _⟩ | ⟨_, rfl, hbooks⟩
    · exact absurd (hconn.symm.trans hlost) (nofun : ¬ true = false)
    · exact ⟨rfl, hbooks, rfl⟩

theorem map_tell_eq_set (w : e.Sound) (h : e.calls[k]? = some ⟨q, some id, .waiting⟩)
    (outcome : Except EngineFault Json) :
    e.calls.map (CallRecord.tell [id] outcome) = e.calls.set k ⟨q, some id, .told outcome⟩ := by
  apply List.ext_getElem?
  intro j
  rw [List.getElem?_map, getElem?_set_of_some h]
  split
  · rename_i hk
    rw [← hk, h, Option.map_some, tell_of_mem List.mem_cons_self]
  · rename_i hk
    cases hget : e.calls[j]? with
    | none => rfl
    | some call =>
      obtain ⟨q', n, standing⟩ := call
      rw [Option.map_some, tell_of_notMem]
      rintro id' rfl hid
      rw [List.mem_singleton.mp hid] at hget
      exact hk (w.unique h hget)

/-- An answer for a call that waits takes its number off the books and tells the call, and no more. -/
theorem receive_of_waiting (w : e.Sound) (hcall : e.calls[k]? = some ⟨q, some id, .waiting⟩)
    {text : String} {result : Except RemoteError Json}
    (ht : Incoming.ofText? text = some (.answer id result)) :
    e.perform (.receive text) =
      { e with
        client := { e.client with pending := e.client.pending.filter fun i => i ≠ id }
        calls := e.calls.set k ⟨q, some id, .told (result.mapError RemoteError.toFault)⟩ } := by
  have hmem : id ∈ e.client.pending := (w.pending id).mpr ⟨k, q, hcall⟩
  rw [perform, receive, if_pos (w.connected ⟨q, hcall⟩), Client.receive_of_pending ht hmem]
  simp only [map_tell_eq_set w hcall, Client.cancel]

/-- A text that is no answer changes nothing. -/
theorem receive_of_unanswering {text : String}
    (h : ∀ id result, Incoming.ofText? text ≠ some (.answer id result)) : e.perform (.receive text) = e := by
  have hp := e.receive_performs text
  rw [perform]
  generalize e.receive text = e' at hp
  cases hp with
  | answered hanswer => exact absurd hanswer (h _ _)
  | ignored => rfl

def run (acts : List (Action L)) : Exchange L := acts.foldl perform {}

theorem run_concat (acts : List (Action L)) (a : Action L) : run (acts ++ [a]) = (run acts).perform a := by
  rw [run, List.foldl_append]
  rfl

theorem Sound.run (acts : List (Action L)) : (run acts).Sound := by
  induction acts using List.reverseRecOn with
  | nil => exact Sound.start
  | append_singleton acts a ih =>
    rw [run_concat]
    exact ih.perform a

/-- A call was sent, and since then not answered, not given up, and not ended with the connection. -/
def Open (acts : List (Action L)) (k id : Nat) : Prop :=
  ∃ before a after, acts = before ++ a :: after ∧ (run before).Opens a k id ∧ ∀ b ∈ after, ¬ b.Ends k id

theorem open_concat : Open (acts ++ [a]) k id ↔
    (run acts).Opens a k id ∨ (Open acts k id ∧ ¬ a.Ends k id) := by
  constructor
  · rintro ⟨before, b, after, heq, hopens, hends⟩
    rcases List.eq_nil_or_concat after with rfl | ⟨after, c, rfl⟩
    · obtain ⟨rfl, h⟩ := List.append_inj' heq rfl
      cases h
      exact .inl hopens
    · rw [List.concat_eq_append] at heq hends
      rw [← List.cons_append, ← List.append_assoc] at heq
      obtain ⟨rfl, h⟩ := List.append_inj' heq rfl
      cases h
      have hafter : ∀ d ∈ after, ¬ d.Ends k id := fun d hd => hends d (List.mem_append_left _ hd)
      have hlast : ¬ a.Ends k id := hends a (List.mem_append_right _ List.mem_cons_self)
      exact .inr ⟨⟨before, b, after, rfl, hopens, hafter⟩, hlast⟩
  · rintro (hopens | ⟨⟨before, b, after, rfl, hopens, hends⟩, ha⟩)
    · exact ⟨acts, a, [], rfl, hopens, nofun⟩
    · refine ⟨before, b, after ++ [a], by simp, hopens, ?_⟩
      intro c hc
      rcases List.mem_append.mp hc with hc | hc
      · exact hends c hc
      · exact List.mem_singleton.mp hc ▸ ha

/-- The calls that wait are those that are open. -/
theorem waits_run (acts : List (Action L)) : (run acts).Waits k id ↔ Open acts k id := by
  induction acts using List.reverseRecOn with
  | nil =>
    constructor
    · rintro ⟨_, h⟩
      cases h
    · rintro ⟨before, a, after, h, _⟩
      cases before <;> cases h
  | append_singleton acts a ih => rw [run_concat, waits_perform (Sound.run acts) a, open_concat, ih]

/-- The engine answered a call with this outcome while the call was open. -/
def Answered (acts : List (Action L)) (k : Nat) (outcome : Except EngineFault Json) : Prop :=
  ∃ before text after id result, acts = before ++ .receive text :: after ∧ Open before k id ∧
    Incoming.ofText? text = some (.answer id result) ∧ outcome = result.mapError RemoteError.toFault

theorem Answered.concat (h : Answered acts k outcome) (a : Action L) : Answered (acts ++ [a]) k outcome := by
  obtain ⟨before, text, after, id, result, rfl, h⟩ := h
  exact ⟨before, text, after ++ [a], id, result, by simp, h⟩

theorem answered_of_told (acts : List (Action L)) {k : Nat} {q : Inquiry L} {n : Option Nat}
    {outcome : Except EngineFault Json} (h : (run acts).calls[k]? = some ⟨q, n, .told outcome⟩) :
    outcome = .error Client.lost ∨ Answered acts k outcome := by
  induction acts using List.reverseRecOn with
  | nil => cases h
  | append_singleton acts a ih =>
    rw [run_concat] at h
    rcases told_perform (Sound.run acts) h with h | ⟨id, hwaits, htells⟩
    · rcases ih h with hlost | hanswered
      · exact .inl hlost
      · exact .inr (hanswered.concat a)
    · cases htells with
      | @answer text result ht =>
        exact .inr ⟨acts, text, [], id, result, rfl, (waits_run acts).mp hwaits, ht, rfl⟩
      | lost => exact .inl rfl

theorem answered_of_returned (acts : List (Action L)) {k : Nat} {outcome : Except EngineFault Json}
    (h : (k, outcome) ∈ (run acts).returns) :
    outcome = .error Client.lost ∨ outcome = .error Client.silent ∨ Answered acts k outcome := by
  induction acts using List.reverseRecOn with
  | nil => cases h
  | append_singleton acts a ih =>
    rw [run_concat] at h
    rcases mem_returns_perform h with h | hlost | ⟨_, hsilent⟩ | ⟨q, n, htold⟩
    · rcases ih h with hlost | hsilent | hanswered
      · exact .inl hlost
      · exact .inr (.inl hsilent)
      · exact .inr (.inr (hanswered.concat a))
    · exact .inl hlost
    · exact .inr (.inl hsilent)
    · rcases answered_of_told acts htold with hlost | hanswered
      · exact .inl hlost
      · exact .inr (.inr (hanswered.concat a))

theorem returns_run_append (acts more : List (Action L)) :
    ∃ rest, (run (acts ++ more)).returns = (run acts).returns ++ rest := by
  induction more using List.reverseRecOn with
  | nil => exact ⟨[], by simp⟩
  | append_singleton more a ih =>
    obtain ⟨rest, h⟩ := ih
    obtain ⟨last, h'⟩ := returns_perform (e := run (acts ++ more)) a
    exact ⟨rest ++ last, by rw [← List.append_assoc, run_concat, h', h, List.append_assoc]⟩

/-- A caller that was told an outcome still has it, or has returned it, unless it gave up. -/
theorem told_run (acts : List (Action L)) {more : List (Action L)}
    (h : (run acts).calls[k]? = some ⟨q, some id, .told outcome⟩) (hmore : .cancel k ∉ more) :
    (run (acts ++ more)).calls[k]? = some ⟨q, some id, .told outcome⟩ ∨
      (k, outcome) ∈ (run (acts ++ more)).returns := by
  induction more using List.reverseRecOn with
  | nil => exact .inl (by rwa [List.append_nil])
  | append_singleton more a ih =>
    rw [List.mem_append, List.mem_singleton, not_or] at hmore
    rw [← List.append_assoc, run_concat]
    rcases ih hmore.1 with h | h
    · exact (told_stays (Sound.run _) h fun heq => hmore.2 heq.symm).imp_right And.right
    · obtain ⟨rest, hrest⟩ := returns_perform (e := run (acts ++ more)) a
      exact .inr (hrest ▸ List.mem_append_left _ h)

/-- A caller that was told an outcome returns it when it goes on. -/
theorem returns_of_told (acts : List (Action L)) {more : List (Action L)}
    (h : (run acts).calls[k]? = some ⟨q, some id, .told outcome⟩) (hmore : .cancel k ∉ more) :
    (k, outcome) ∈ (run (acts ++ more ++ [.resume k])).returns := by
  rw [run_concat]
  rcases told_run acts h hmore with h | h
  · exact resume_of_told h
  · obtain ⟨rest, hrest⟩ := returns_perform (e := run (acts ++ more)) (.resume k)
    exact hrest ▸ List.mem_append_left _ h

/-- The connection has ended, and this call can only fail by that. -/
structure Lost (e : Exchange L) (k : Nat) : Prop where
  ended : e.client.connected = false
  told : ∀ q n outcome, e.calls[k]? = some ⟨q, n, .told outcome⟩ → outcome = .error Client.lost
  returned : ∀ outcome, (k, outcome) ∈ e.returns → outcome = .error Client.lost

theorem Lost.perform (l : e.Lost k) (w : e.Sound) (a : Action L) : (e.perform a).Lost k := by
  constructor
  · exact connected_perform l.ended a
  · intro q n outcome h
    rcases told_perform w h with h | ⟨id, hwaits, _⟩
    · exact l.told q n outcome h
    · exact absurd ((w.connected hwaits).symm.trans l.ended) (nofun : ¬ true = false)
  · intro outcome h
    rcases mem_returns_perform h with h | h | ⟨hconn, _⟩ | ⟨q, n, htold⟩
    · exact l.returned outcome h
    · exact h
    · exact absurd (hconn.symm.trans l.ended) (nofun : ¬ true = false)
    · exact l.told q n outcome htold

theorem Lost.run {more : List (Action L)} (l : (run acts).Lost k) : (Exchange.run (acts ++ more)).Lost k := by
  induction more using List.reverseRecOn with
  | nil => rwa [List.append_nil]
  | append_singleton more a ih =>
    rw [← List.append_assoc, run_concat]
    exact ih.perform (Sound.run _) a

theorem connected_run {more : List (Action L)} (h : (run acts).client.connected = false) :
    (run (acts ++ more)).client.connected = false := by
  induction more using List.reverseRecOn with
  | nil => rwa [List.append_nil]
  | append_singleton more a ih =>
    rw [← List.append_assoc, run_concat]
    exact connected_perform ih a

/-- An open call is told when the connection ends. -/
theorem told_of_lose (h : Open acts k id) :
    ∃ q, (run (acts ++ [.lose])).calls[k]? = some ⟨q, some id, .told (.error Client.lost)⟩ := by
  have w := Sound.run acts
  obtain ⟨q, hget⟩ := (waits_run acts).mpr h
  have hmem : id ∈ (run acts).client.pending := (w.pending id).mpr ⟨k, q, hget⟩
  refine ⟨q, ?_⟩
  rw [run_concat]
  show ((run acts).calls.map (CallRecord.tell (run acts).client.pending _))[k]? = _
  rw [List.getElem?_map, hget, Option.map_some, tell_of_mem hmem]

theorem lost_of_lose (h : Open acts k id) : (run (acts ++ [.lose])).Lost k := by
  obtain ⟨q, htold⟩ := told_of_lose h
  obtain ⟨q', hwaits⟩ := (waits_run acts).mpr h
  constructor
  · rw [run_concat]
    rfl
  · intro q'' n outcome h'
    cases htold.symm.trans h'
    rfl
  · -- A call that waits has not returned.
    intro outcome hmem
    rw [run_concat] at hmem
    have hreturned : (k, outcome) ∈ (run acts).returns := hmem
    have hnot := (Sound.run acts).notReturned hwaits nofun
    exact absurd (List.mem_map_of_mem hreturned) hnot

/-- Outcomes that only the engine can give. -/
def OfEngine : Except EngineFault Json → Prop
  | .ok _ => True
  | .error (.refused _ _) => True
  | .error _ => False

/-- Calls and answers are matched one to one, and the end of the connection fails every call. -/
theorem outcomes_matched (acts : List (Action L)) :
    ((run acts).sent.map SentRequest.id).Nodup ∧
    (∀ r ∈ (run acts).sent, r.id ≤ (run acts).calls.length) ∧
    ((run acts).returns.map Prod.fst).Nodup ∧
    (∀ k outcome, (k, outcome) ∈ (run acts).returns → OfEngine outcome → Answered acts k outcome) ∧
    (∀ id, id ∈ (run acts).client.pending ↔ ∃ k, Open acts k id) ∧
    (∀ text id result, Incoming.ofText? text = some (.answer id result) →
      ((∀ k, ¬ Open acts k id) → (run acts).perform (.receive text) = run acts) ∧
      ∀ k, Open acts k id → ∃ q, (run acts).calls[k]? = some ⟨q, some id, .waiting⟩ ∧
        (run acts).perform (.receive text) =
          { run acts with
            client := (run acts).client.cancel id
            calls := (run acts).calls.set k
              ⟨q, some id, .told (result.mapError RemoteError.toFault)⟩ }) ∧
    ∀ before after, acts = before ++ .lose :: after →
      (run acts).client.pending = [] ∧
      (∀ k id, Open before k id →
        (∀ outcome, (k, outcome) ∈ (run acts).returns → outcome = .error Client.lost) ∧
        ∀ mid rest, after = mid ++ .resume k :: rest → .cancel k ∉ mid →
          (k, .error Client.lost) ∈ (run acts).returns) ∧
      ∀ q, ((run acts).perform (.ask q)).sent = (run acts).sent ∧
        ((run acts).perform (.ask q)).client.books = (run acts).client.books ∧
        ((run acts).perform (.ask q)).returns =
          (run acts).returns ++ [((run acts).calls.length, .error Client.lost)] := by
  have w := Sound.run acts
  refine ⟨?_, ?_, w.once, ?_, ?_, ?_, ?_⟩
  · rw [w.sent]
    exact w.ascending.imp Nat.ne_of_lt
  · intro r hr
    have hmem : r.id ∈ numbers (run acts).calls := w.sent ▸ List.mem_map_of_mem hr
    have := w.below r.id hmem
    have := w.counted
    omega
  · intro k outcome h hengine
    rcases answered_of_returned acts h with rfl | rfl | hanswered
    · exact absurd hengine id
    · exact absurd hengine id
    · exact hanswered
  · intro id
    simp only [w.pending, waits_run]
  · intro text id result ht
    constructor
    · intro hnot
      have hmem : id ∉ (run acts).client.pending := by
        intro hmem
        obtain ⟨k, hwaits⟩ := (w.pending id).mp hmem
        exact hnot k ((waits_run acts).mp hwaits)
      simp only [perform, receive, Client.receive_of_notMem ht hmem, ite_self]
    · intro k hopen
      obtain ⟨q, hget⟩ := (waits_run acts).mpr hopen
      have hmem : id ∈ (run acts).client.pending := (w.pending id).mpr ⟨k, q, hget⟩
      refine ⟨q, hget, ?_⟩
      simp only [perform, receive, w.connected ⟨q, hget⟩, if_true, Client.receive_of_pending ht hmem,
        map_tell_eq_set w hget]
  · rintro before after rfl
    have hended : (run (before ++ [.lose])).client.connected = false := by
      rw [run_concat]
      rfl
    have happend : before ++ .lose :: after = (before ++ [.lose]) ++ after := by simp
    rw [happend]
    have hlost : (run ((before ++ [.lose]) ++ after)).client.connected = false := connected_run hended
    refine ⟨(Sound.run _).lost hlost, ?_, ask_of_lost hlost⟩
    intro k id hopen
    constructor
    · exact (lost_of_lose hopen).run.returned
    · rintro mid rest rfl hmid
      obtain ⟨q, htold⟩ := told_of_lose hopen
      have hresumed : (k, .error Client.lost) ∈ (run ((before ++ [.lose]) ++ mid ++ [.resume k])).returns := by
        rw [run_concat]
        rcases told_run (before ++ [.lose]) htold hmid with h | h
        · exact resume_of_told h
        · obtain ⟨more, hmore⟩ := returns_perform (e := run ((before ++ [.lose]) ++ mid)) (.resume k)
          exact hmore ▸ List.mem_append_left _ h
      have hrest : (before ++ [.lose]) ++ (mid ++ .resume k :: rest) =
          ((before ++ [.lose]) ++ mid ++ [.resume k]) ++ rest := by simp
      obtain ⟨more, hmore⟩ := returns_run_append ((before ++ [.lose]) ++ mid ++ [.resume k]) rest
      rw [hrest, hmore]
      exact List.mem_append_left _ hresumed

end Rostrum.Rpc.Exchange
