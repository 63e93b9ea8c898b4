import Rostrum.Proofs.Registry.Mirror

/-!
# Sessions do not meet

Two sequences of calls in which a session makes the same calls, whatever other sessions do in between,
are the same for this session: it gets the same answers and stands the same at the end. Both are
compared with a third one, in which the session is alone.

Attempts are numbered through for all sessions. So the same call names an attempt by its rank among those
of the session, and answers are the same but for a renaming that keeps the attempts in order. What is
asked of the calls is that an attempt is named by the session only to which it was given.
-/

namespace Rostrum.Registry

/-- The attempts that a session was given, in order. -/
def attemptsOf (s : SessionId) (calls : List Call) : List Attempt :=
  ((issued (log {} calls)).filter fun x => x.1 = s).map Prod.snd

def answersOf (s : SessionId) (calls : List Call) : List Answer :=
  ((log {} calls).filter fun d => d.call.session = s).map Deed.answer

/-- The calls of a session, with other names for the attempts. -/
def callsOf (f : Attempt → Attempt) (s : SessionId) (calls : List Call) : List Call :=
  (calls.filter fun call => call.session = s).map (Call.named f)

/-- The calls of a session, with its attempts named by their ranks. -/
def rankedCallsOf (s : SessionId) (calls : List Call) : List Call :=
  callsOf (rank (attemptsOf s calls)) s calls

/-- No call names an attempt that was given to another session. -/
def Disciplined (calls : List Call) : Prop :=
  ∀ call ∈ calls, ∀ x ∈ issued (log {} calls), call.attempt? = some x.2 → x.1 = call.session

instance (calls : List Call) : Decidable (Disciplined calls) :=
  inferInstanceAs (Decidable (∀ call ∈ calls, ∀ x ∈ issued (log {} calls), _ → _))

/-- All that can be asked about a session. -/
structure View where
  /-- Its role, its phase and its media objects. -/
  entry : Option Entry
  activeRole : Option Role
  presents : Bool
  views : Bool
  queue : Option (List Candidate)

def viewOf (r : Registry) (s : SessionId) : View :=
  ⟨r.entry? s, r.activeRole? s, r.presenters.contains s, r.viewers.contains s, r.buffer.queues.get? s⟩

def View.named (f : Attempt → Attempt) (v : View) : View := { v with entry := v.entry.map (Entry.named f) }

section Single
variable {r r₀ : Registry} {call : Call}

theorem Deed.session_of_issued {d : Deed} {x : SessionId × Attempt} (h : x ∈ d.issued) :
    x.1 = d.call.session := by
  obtain ⟨s, a⟩ := x
  obtain ⟨role, hcall⟩ := d.call_of_issued h
  rw [hcall]
  rfl

theorem issued_of_entered {a : Attempt} (h : r.answer call = .entered a) :
    (Deed.mk r call).issued = [(call.session, a)] := by
  have ho := r.perform_outcome call
  unfold Deed.issued Deed.answer
  revert ho h
  generalize r.answer call = ans
  generalize r.next call = r'
  intro h ho
  cases ho with
  | entered | enteredAnew =>
    cases h
    rfl
  | @endpointSet _ _ _ e | @portSet _ _ _ e => cases hs : e.stopped <;> simp [hs, Answer.ofUnit] at h
  | _ => cases h

theorem lastAttempt_next (r : Registry) (call : Call) :
    (r.next call).lastAttempt = r.lastAttempt + (Deed.mk r call).issued.length := by
  have ho := r.perform_outcome call
  unfold Deed.issued Deed.answer
  revert ho
  generalize r.answer call = ans
  generalize r.next call = r'
  intro ho
  cases ho <;> simp

theorem issued_named {f : Attempt → Attempt}
    (h : r₀.answer (call.named f) = (r.answer call).named f) :
    (Deed.mk r₀ (call.named f)).issued = (Deed.mk r call).issued.map fun x => (x.1, f x.2) := by
  unfold Deed.issued Deed.answer
  rw [h]
  generalize r.answer call = ans
  cases call with
  | register s role =>
    cases ans with
    | action left => cases left <;> rfl
    | _ => rfl
  | _ => rfl

end Single

/-! ## Runs -/

section Runs
variable {s : SessionId} {calls : List Call} {call : Call}

theorem mem_attemptsOf {a : Attempt} : a ∈ attemptsOf s calls ↔ (s, a) ∈ issued (log {} calls) := by
  simp [attemptsOf]

theorem issued_append_left {x : SessionId × Attempt} (h : x ∈ issued (log {} calls)) :
    x ∈ issued (log {} (calls ++ [call])) := by
  rw [log_append, issued_append]
  exact List.mem_append_left _ h

theorem attemptsOf_append : attemptsOf s (calls ++ [call]) = attemptsOf s calls ++
    if call.session = s then (Deed.mk (({} : Registry).after calls) call).issued.map Prod.snd else [] := by
  have hsession : ∀ x ∈ (Deed.mk (({} : Registry).after calls) call).issued, x.1 = call.session :=
    fun x => Deed.session_of_issued
  unfold attemptsOf
  rw [log_append, issued_append, List.filter_append, List.map_append]
  congr 1
  split
  · rename_i hs
    rw [List.filter_eq_self.mpr]
    intro x hx
    simpa [hs] using hsession x hx
  · rename_i hs
    rw [List.filter_eq_nil_iff.mpr]
    · rfl
    · intro x hx
      simpa [hsession x hx] using hs

theorem answersOf_append : answersOf s (calls ++ [call]) = answersOf s calls ++
    if call.session = s then [(({} : Registry).after calls).answer call] else [] := by
  unfold answersOf
  rw [log_append, List.filter_append, List.map_append]
  congr 1
  split
  · rename_i hs
    simp [hs, Deed.answer]
  · rename_i hs
    simp [hs]

theorem callsOf_append (f : Attempt → Attempt) : callsOf f s (calls ++ [call]) = callsOf f s calls ++
    if call.session = s then [call.named f] else [] := by
  unfold callsOf
  rw [List.filter_append, List.map_append]
  congr 1
  split
  · rename_i hs
    simp [hs]
  · rename_i hs
    simp [hs]

theorem attemptsOf_increasing (s : SessionId) (calls : List Call) :
    (attemptsOf s calls).Pairwise fun a a' => a.number < a'.number := by
  induction calls using List.reverseRecOn with
  | nil => exact .nil
  | append_singleton calls call ih =>
    rw [attemptsOf_append]
    split
    · refine List.pairwise_append.mpr ⟨ih, ?_, ?_⟩
      · unfold Deed.issued
        split <;> simp
      · intro a ha a' ha'
        obtain ⟨⟨s', _⟩, hx, rfl⟩ := List.mem_map.mp ha'
        have hle := (accounted calls).issued_le s a (mem_attemptsOf.mp ha)
        have hnew := (issued_next hx).1
        simp only at hnew ⊢
        omega
    · rwa [List.append_nil]

theorem attemptsOf_nodup (s : SessionId) (calls : List Call) : (attemptsOf s calls).Nodup :=
  (attemptsOf_increasing s calls).imp fun hlt heq => absurd (congrArg Attempt.number heq) (Nat.ne_of_lt hlt)

/--
The attempts `own` are those of the session, with some that it will be given later, and they are named by
its calls only.
-/
structure Separated (own : List Attempt) (s : SessionId) (calls : List Call) : Prop where
  attempts : attemptsOf s calls <+: own
  named : ∀ call ∈ calls, call.session = s → ∀ a, call.attempt? = some a →
    a ∈ own ∨ ∀ s', (s', a) ∉ issued (log {} calls)
  others : ∀ call ∈ calls, call.session ≠ s → ∀ a ∈ own, call.attempt? ≠ some a
  apart : ∀ s' a, (s', a) ∈ issued (log {} calls) → a ∈ own → s' = s

theorem Disciplined.separated (h : Disciplined calls) (s : SessionId) :
    Separated (attemptsOf s calls) s calls where
  attempts := List.prefix_refl _
  named call hcall hs a ha := by
    by_cases hissued : ∃ s', (s', a) ∈ issued (log {} calls)
    · obtain ⟨s', hx⟩ := hissued
      have hs' : s' = call.session := h call hcall _ hx ha
      rw [hs', hs] at hx
      exact .inl (mem_attemptsOf.mpr hx)
    · exact .inr fun s' hx => hissued ⟨s', hx⟩
  others call hcall hs a ha hname := hs (h call hcall _ (mem_attemptsOf.mp ha) hname).symm
  apart s' a hx ha := (accounted calls).session_eq hx (mem_attemptsOf.mp ha)

theorem Separated.init {own : List Attempt} (h : Separated own s (calls ++ [call])) :
    Separated own s calls := by
  constructor
  · have hprefix := h.attempts
    rw [attemptsOf_append] at hprefix
    exact (List.prefix_append _ _).trans hprefix
  · intro c hc hs a ha
    have hnamed := h.named c (List.mem_append_left _ hc) hs a ha
    exact hnamed.imp_right fun hno s' hx => hno s' (issued_append_left hx)
  · exact fun c hc => h.others c (List.mem_append_left _ hc)
  · exact fun s' a hx => h.apart s' a (issued_append_left hx)

theorem issued_of_mem {e : Entry} (h : e ∈ (({} : Registry).after calls).entries) :
    ∃ s', (s', e.attempt) ∈ issued (log {} calls) := by
  have hmem : e.attempt ∈ (((issued (log {} calls)).map Prod.snd : List Attempt) : Multiset Attempt) := by
    rw [← (accounted calls).balance]
    exact Multiset.mem_add.mpr (.inl (Multiset.mem_map_of_mem _ h))
  obtain ⟨⟨s', _⟩, hx, ha⟩ := List.mem_map.mp (Multiset.mem_coe.mp hmem)
  exact ⟨s', ha ▸ hx⟩

theorem attempt?_eq_none_of_unissued {a : Attempt} (h : ∀ s', (s', a) ∉ issued (log {} calls)) :
    (({} : Registry).after calls).attempt? s a = none := by
  rw [Option.eq_none_iff_forall_ne_some]
  intro e he
  obtain ⟨hm, rfl⟩ := (accounted calls).wellFormed.mem_of_attempt? he
  obtain ⟨s', hx⟩ := issued_of_mem hm
  exact h s' hx

/-- The session is alone on the other side, with the same answers. -/
structure Mirrored (own : List Attempt) (s : SessionId) (calls : List Call) : Prop where
  mirrors : Mirrors own s (({} : Registry).after calls) (({} : Registry).after (callsOf (rank own) s calls))
  attempts : attemptsOf s (callsOf (rank own) s calls) = (attemptsOf s calls).map (rank own)
  answers : answersOf s (callsOf (rank own) s calls) = (answersOf s calls).map (Answer.named (rank own))
  lastAttempt : (({} : Registry).after (callsOf (rank own) s calls)).lastAttempt = (attemptsOf s calls).length

/-- What the next call of the session may name, and what it may be given. -/
theorem Separated.known {own : List Attempt} (h : Separated own s (calls ++ [call])) {r₀ : Registry}
    (w₀ : r₀.WellFormed) (hlast : r₀.lastAttempt = (attemptsOf s calls).length) (hs : call.session = s)
    {a : Attempt} (ha : call.attempt? = some a) :
    Mirrors.Known own s (({} : Registry).after calls) r₀ a := by
  by_cases hmem : a ∈ own
  · exact .inl hmem
  · have hno := (h.named call (by simp) hs a ha).resolve_left hmem
    refine .inr ⟨attempt?_eq_none_of_unissued fun s' hx => hno s' (issued_append_left hx), ?_⟩
    · rw [Option.eq_none_iff_forall_ne_some]
      intro e he
      obtain ⟨hm, hrank⟩ := w₀.mem_of_attempt? he
      have hle := w₀.attempt_le e hm
      have hown := h.init.attempts.length_le
      have hnumber : (rank own a).number = own.length + 1 := by
        simp [rank, List.idxOf_eq_length hmem]
      rw [hrank] at hle
      omega

theorem Separated.new {own : List Attempt} (hown : own.Nodup) (h : Separated own s (calls ++ [call]))
    (hs : call.session = s) {a : Attempt} (ha : (({} : Registry).after calls).answer call = .entered a) :
    a ∈ own ∧ rank own a = ⟨(attemptsOf s calls).length + 1⟩ := by
  obtain ⟨later, rfl⟩ := h.attempts
  rw [attemptsOf_append, if_pos hs, issued_of_entered ha] at hown ⊢
  have hfirst : a ∉ attemptsOf s calls := by
    intro hmem
    have hnodup := (List.nodup_append.mp hown).1
    exact (List.nodup_append.mp hnodup).2.2 a hmem a (by simp) rfl
  refine ⟨by simp, ?_⟩
  simp [rank, List.idxOf_append, hfirst]

theorem Separated.mirrored {own : List Attempt} (hown : own.Nodup) (h : Separated own s calls) :
    Mirrored own s calls := by
  induction calls using List.reverseRecOn with
  | nil => exact ⟨mirrors_empty own s, rfl, rfl, rfl⟩
  | append_singleton calls call ih =>
    obtain ⟨hmirrors, hattempts, hanswers, hlast⟩ := ih h.init
    have hac := accounted calls
    have w₀ := wellFormed_empty.after (callsOf (rank own) s calls)
    by_cases hs : call.session = s
    · have hsession : (call.named (rank own)).session = s := (call.named_session _).trans hs
      obtain ⟨hanswer, hnext⟩ := hmirrors.next hac.wellFormed w₀ hs
        (fun a ha => h.known w₀ hlast hs ha) fun a ha => by rw [hlast]; exact h.new hown hs ha
      have hissued := issued_named hanswer
      constructor
      · rw [callsOf_append, if_pos hs, after_append, after_append]
        exact hnext
      · rw [callsOf_append, if_pos hs, attemptsOf_append, if_pos hsession, attemptsOf_append, if_pos hs,
          hattempts, hissued]
        simp
      · rw [callsOf_append, if_pos hs, answersOf_append, if_pos hsession, answersOf_append, if_pos hs,
          hanswers, hanswer]
        simp
      · rw [callsOf_append, if_pos hs, after_append, lastAttempt_next, hlast, attemptsOf_append, if_pos hs,
          hissued]
        simp
    · have hother := hmirrors.other hac.wellFormed hs (fun e he hmem => ?_) (h.others call (by simp) hs)
      · constructor
        · rw [callsOf_append, if_neg hs, List.append_nil, after_append]
          exact hother
        · rw [callsOf_append, attemptsOf_append, if_neg hs, if_neg hs, List.append_nil, List.append_nil,
            hattempts]
        · rw [callsOf_append, answersOf_append, if_neg hs, if_neg hs, List.append_nil, List.append_nil,
            hanswers]
        · rw [callsOf_append, attemptsOf_append, if_neg hs, if_neg hs, List.append_nil, List.append_nil, hlast]
      · exact hs (h.init.apart _ _ (hac.current_issued _ e he) hmem)

end Runs

/-! ## Renamings -/

section Renaming
variable {f g : Attempt → Attempt}

/-- The attempts in an answer. -/
def Answer.attempts : Answer → List Attempt
  | .entered a => [a]
  | .action (.teardown e) => [e.attempt]
  | .removed (some e) => [e.attempt]
  | _ => []

theorem Answer.named_named (ans : Answer) : (ans.named f).named g = ans.named (g ∘ f) := by
  cases ans with
  | action left => cases left <;> rfl
  | removed e => cases e <;> rfl
  | _ => rfl

theorem Answer.named_eq_self {ans : Answer} (h : ∀ a ∈ ans.attempts, f a = a) : ans.named f = ans := by
  cases ans with
  | entered a => exact congrArg Answer.entered (h a (by simp [attempts]))
  | action left =>
    cases left with
    | teardown e => simp [named, Entry.named, h e.attempt (by simp [attempts])]
    | _ => rfl
  | removed e =>
    cases e with
    | none => rfl
    | some e => simp [named, Entry.named, h e.attempt (by simp [attempts])]
  | _ => rfl

/-- The attempt of a rank. -/
def unrank (own : List Attempt) (a : Attempt) : Attempt := own.getD (a.number - 1) default

theorem unrank_rank {own : List Attempt} {a : Attempt} (h : a ∈ own) : unrank own (rank own a) = a := by
  have hlt := List.idxOf_lt_length_of_mem h
  simp [unrank, rank, hlt]

/-- A function from one increasing list to another keeps the order. -/
theorem increasing_of_map {own : List Attempt} (h : own.Pairwise fun a a' => a.number < a'.number)
    (h' : (own.map f).Pairwise fun a a' => a.number < a'.number) {a a' : Attempt} (ha : a ∈ own)
    (ha' : a' ∈ own) (hlt : a.number < a'.number) : (f a).number < (f a').number := by
  rw [List.pairwise_map] at h'
  obtain ⟨i, hi, rfl⟩ := List.getElem_of_mem ha
  obtain ⟨j, hj, rfl⟩ := List.getElem_of_mem ha'
  rcases Nat.lt_trichotomy i j with hij | rfl | hji
  · exact List.pairwise_iff_getElem.mp h' i j hi hj hij
  · exact absurd hlt (Nat.lt_irrefl _)
  · exact absurd hlt (Nat.lt_asymm (List.pairwise_iff_getElem.mp h j i hj hi hji))

end Renaming

/-! ## Two runs -/

section TwoRuns
variable {s : SessionId} {xs ys zs : List Call}

theorem Disciplined.init {call : Call} (h : Disciplined (xs ++ [call])) : Disciplined xs :=
  fun c hc x hx => h c (List.mem_append_left _ hc) x (issued_append_left hx)

/-- An attempt in an answer was given out before, or just now, or it was named. -/
theorem issued_of_answer {call : Call} {a : Attempt}
    (h : a ∈ ((({} : Registry).after xs).answer call).attempts) :
    (call.session, a) ∈ issued (log {} (xs ++ [call])) ∨
      call.attempt? = some a ∧ ∃ s', (s', a) ∈ issued (log {} xs) := by
  have hac := accounted xs
  have hcurrent : ∀ e, Registry.entry? (({} : Registry).after xs) call.session = some e →
      (call.session, e.attempt) ∈ issued (log {} (xs ++ [call])) :=
    fun e he => issued_append_left (hac.current_issued _ e he)
  have hentered := @issued_of_entered (({} : Registry).after xs) call a
  have ho := (({} : Registry).after xs).perform_outcome call
  revert ho h hentered
  generalize (({} : Registry).after xs).answer call = ans
  generalize (({} : Registry).after xs).next call = r'
  intro h hentered ho
  cases ho with
  | entered | enteredAnew =>
    obtain rfl := List.mem_singleton.mp h
    left
    rw [log_append, issued_append, hentered rfl]
    simp
  | tornDown he | removedCurrent he =>
    obtain rfl := List.mem_singleton.mp h
    exact .inl (hcurrent _ he)
  | removedSuperseded _ he =>
    obtain rfl := List.mem_singleton.mp h
    have hkey := hac.wellFormed.superseded_key _ _ he
    exact .inr ⟨congrArg some hkey.symm, issued_of_mem (mem_entries_of_superseded he)⟩
  | @endpointSet _ _ _ e | @portSet _ _ _ e => cases hs : e.stopped <;> simp [hs, Answer.ofUnit, Answer.attempts] at h
  | _ => cases h

theorem Disciplined.attempts_of_answers (h : Disciplined xs) {ans : Answer} (hans : ans ∈ answersOf s xs)
    {a : Attempt} (ha : a ∈ ans.attempts) : a ∈ attemptsOf s xs := by
  induction xs using List.reverseRecOn with
  | nil => cases hans
  | append_singleton xs call ih =>
    rw [answersOf_append] at hans
    rcases List.mem_append.mp hans with hold | hnew
    · exact mem_attemptsOf.mpr (issued_append_left (mem_attemptsOf.mp (ih h.init hold)))
    · split at hnew
      · rename_i hs
        obtain rfl := List.mem_singleton.mp hnew
        rw [mem_attemptsOf, ← hs]
        rcases issued_of_answer ha with hgiven | ⟨hnamed, s', hx⟩
        · exact hgiven
        · have hx' : (s', _) ∈ issued (log {} (xs ++ [call])) := issued_append_left hx
          exact h call (by simp) _ hx' hnamed ▸ hx'
      · cases hnew

theorem contains_eq {r : Registry} (w : r.WellFormed) (s : SessionId) (role : Role) :
    (r.table role).contains s = (r.entry? s).any fun e => e.role = role := by
  unfold Table.contains
  cases he : r.entry? s with
  | none => rw [entry?_eq_none_iff.mp he role, Option.any_none, Option.isSome_none]
  | some e =>
    have ht := w.entry?_eq_some_iff.mp he
    by_cases hrole : e.role = role
    · subst hrole
      simp [ht]
    · simp [w.other_table ht hrole, hrole]

theorem Mirrors.view {own : List Attempt} {r r₀ : Registry} (h : Mirrors own s r r₀) (w : r.WellFormed)
    (w₀ : r₀.WellFormed) : viewOf r₀ s = (viewOf r s).named (rank own) := by
  have hcontains : ∀ role, (r₀.table role).contains s = (r.table role).contains s := by
    intro role
    rw [contains_eq w₀, contains_eq w, h.entry]
    cases r.entry? s <;> rfl
  have hrole : r₀.activeRole? s = r.activeRole? s := by
    unfold activeRole?
    rw [h.entry]
    cases r.entry? s with
    | none => rfl
    | some e => cases hs : e.stopped <;> simp [Option.filter_some, Entry.named, hs]
  have hpresents : r₀.presenters.contains s = r.presenters.contains s := hcontains .presenter
  have hviews : r₀.viewers.contains s = r.viewers.contains s := hcontains .viewer
  rw [viewOf, h.entry, hrole, hpresents, hviews, h.queue]
  rfl

/-- Two runs are the same for a session, but for a renaming of its attempts that keeps their order. -/
structure Alike (f : Attempt → Attempt) (s : SessionId) (xs ys : List Call) : Prop where
  attempts : attemptsOf s ys = (attemptsOf s xs).map f
  answers : answersOf s ys = (answersOf s xs).map (Answer.named f)
  view : viewOf (({} : Registry).after ys) s = (viewOf (({} : Registry).after xs) s).named f
  increasing : ∀ a ∈ attemptsOf s xs, ∀ a' ∈ attemptsOf s xs,
    a.number < a'.number → (f a).number < (f a').number

theorem Alike.trans {f g : Attempt → Attempt} (h : Alike f s xs ys) (h' : Alike g s ys zs) :
    Alike (g ∘ f) s xs zs := by
  constructor
  · rw [h'.attempts, h.attempts, List.map_map]
  · rw [h'.answers, h.answers, List.map_map]
    exact List.map_congr_left fun ans _ => ans.named_named
  · rw [h'.view, h.view]
    cases viewOf (({} : Registry).after xs) s with
    | mk entry => cases entry <;> rfl
  · intro a ha a' ha' hlt
    have hmem : ∀ {a}, a ∈ attemptsOf s xs → f a ∈ attemptsOf s ys := by
      intro a ha
      rw [h.attempts]
      exact List.mem_map_of_mem ha
    exact h'.increasing _ (hmem ha) _ (hmem ha') (h.increasing a ha a' ha' hlt)

/-- A renaming that is undone on the attempts of the session can be undone in all that it sees. -/
theorem Alike.symm {f g : Attempt → Attempt} (h : Alike f s xs ys) (hx : Disciplined xs)
    (hg : ∀ a ∈ attemptsOf s xs, g (f a) = a) : Alike g s ys xs := by
  have hattempts : attemptsOf s xs = (attemptsOf s ys).map g := by
    rw [h.attempts, List.map_map]
    exact (List.map_id _).symm.trans (List.map_congr_left fun a ha => (hg a ha).symm)
  have hanswers : ∀ ans ∈ answersOf s xs, (ans.named f).named g = ans := by
    intro ans hans
    rw [Answer.named_named]
    exact Answer.named_eq_self fun a ha => hg a (hx.attempts_of_answers hans ha)
  constructor
  · exact hattempts
  · rw [h.answers, List.map_map]
    exact (List.map_id _).symm.trans (List.map_congr_left fun ans hans => (hanswers ans hans).symm)
  · rw [h.view]
    have hentry : ∀ e, Registry.entry? (({} : Registry).after xs) s = some e → (e.named f).named g = e := by
      intro e he
      have hmem := mem_attemptsOf.mpr ((accounted xs).current_issued s e he)
      simp [Entry.named, hg e.attempt hmem]
    unfold viewOf View.named
    cases he : Registry.entry? (({} : Registry).after xs) s with
    | none => rfl
    | some e => simp [hentry e he]
  · intro a ha a' ha'
    apply increasing_of_map (attemptsOf_increasing s ys) _ ha ha'
    rw [← hattempts]
    exact attemptsOf_increasing s xs

/-- The session is alone. -/
theorem Disciplined.alike_alone (h : Disciplined xs) (s : SessionId) :
    Alike (rank (attemptsOf s xs)) s xs (rankedCallsOf s xs) := by
  have hm := (h.separated s).mirrored (attemptsOf_nodup s xs)
  refine ⟨hm.attempts, hm.answers, hm.mirrors.view (wellFormed_empty.after _) (wellFormed_empty.after _), ?_⟩
  intro a ha a' ha'
  apply increasing_of_map (attemptsOf_increasing s xs) _ ha ha'
  rw [← hm.attempts]
  exact attemptsOf_increasing s _

/-- What other sessions do in between changes nothing for a session. -/
theorem sessions_isolated (s : SessionId) {xs : List Call} (hx : Disciplined xs) :
    Alike (rank (attemptsOf s xs)) s xs (rankedCallsOf s xs) ∧
    ∀ ys, Disciplined ys → rankedCallsOf s xs = rankedCallsOf s ys → ∃ f, Alike f s xs ys := by
  have halone := hx.alike_alone s
  refine ⟨halone, fun ys hy hcalls => ?_⟩
  have halone' := hy.alike_alone s
  rw [← hcalls] at halone'
  exact ⟨_, halone.trans (halone'.symm hy fun a ha => unrank_rank ha)⟩

/-- A session begins anew while another one comes and goes, or comes later and stays. -/
theorem begun_anew_isolated :
    let s : SessionId := ⟨1⟩
    let other : SessionId := ⟨2⟩
    let c := Candidate.ofLine "a"
    let xs : List Call := [.register other .viewer, .register s .presenter, .stop other, .submit s c,
      .stop s, .remove other ⟨1⟩, .register s .viewer, .remove s ⟨2⟩, .finish s ⟨3⟩, .stop s]
    let ys : List Call := [.register s .presenter, .submit s c, .stop s, .submit other c,
      .register s .viewer, .register other .presenter, .remove s ⟨1⟩, .finish s ⟨2⟩, .stop s]
    Disciplined xs ∧ Disciplined ys ∧ rankedCallsOf s xs = rankedCallsOf s ys ∧
    ∃ f, Alike f s xs ys ∧ f ⟨2⟩ = ⟨1⟩ ∧ f ⟨3⟩ = ⟨2⟩ := by
  intro s other c xs ys
  have hx : Disciplined xs := by decide
  have hy : Disciplined ys := by decide
  have hxs : attemptsOf s xs = [⟨2⟩, ⟨3⟩] := by decide
  have hys : attemptsOf s ys = [⟨1⟩, ⟨2⟩] := by decide
  have hcalls : rankedCallsOf s xs = rankedCallsOf s ys := by
    rw [rankedCallsOf, rankedCallsOf, hxs, hys]
    rfl
  obtain ⟨f, hf⟩ := (sessions_isolated s hx).2 ys hy hcalls
  have hmap := hf.attempts
  rw [hxs, hys] at hmap
  obtain ⟨hfirst, hrest⟩ := List.cons.inj hmap
  exact ⟨hx, hy, hcalls, f, hf, hfirst.symm, (List.cons.inj hrest).1.symm⟩

end TwoRuns

end Rostrum.Registry
