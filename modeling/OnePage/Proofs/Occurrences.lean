import OnePage.Proofs.Registration

/-! # What happens on a socket

A socket is accepted, and what happens on a descriptor from then on belongs to that socket until the
next call that accepts one of the same number (`life`, `Since`). Much of what happens is on one
descriptor (`Confined`), or on none (`Occurrence.Silent`). -/

namespace OnePage
open EventQueue

namespace Occurrence

/-- The descriptor on which something happens. -/
def socket? : Occurrence → Option Fd
  | turn t => some t.before.socket
  | call (.setNonblocking fd _) => some fd
  | call (.add fd ..) => some fd
  | call (.modify fd ..) => some fd
  | call (.delete fd _) => some fd
  | call (.operation fd _) => some fd
  | call (.close fd) => some fd
  | call _ => none

def accepts (fd : Fd) : Occurrence → Bool
  | call (.accept _ (.ok new)) => new == fd
  | _ => false

theorem not_accepts_of_socket? {o : Occurrence} {fd : Fd} (h : o.socket? = some fd) (fd' : Fd) :
    o.accepts fd' = false := by
  unfold accepts
  split
  · cases h
  · rfl

/-- Whether something is on no descriptor and accepts none. -/
def Silent (o : Occurrence) : Prop := o.socket? = none ∧ ∀ fd, o.accepts fd = false

theorem silent_of_isMessage {c : Call} (h : c.isMessage) : (call c).Silent := by
  unfold Call.isMessage at h
  split at h
  · exact ⟨rfl, fun _ => rfl⟩
  · exact ⟨rfl, fun _ => rfl⟩
  · cases h

theorem silent_of_interruption {listener : Fd} {n : Nat} :
    ∀ o ∈ (Sys.interruptions listener n).map call, o.Silent := by
  intro o ho
  obtain ⟨c, hc, rfl⟩ := List.mem_map.1 ho
  rw [List.eq_of_mem_replicate hc]
  exact ⟨rfl, fun _ => rfl⟩

theorem silent_of_unaccepted {listener : Fd} {n : Nat} {e : Errno} :
    ∀ o ∈ (Sys.interruptions listener n ++ [Call.accept listener (.error e)]).map call,
      o.Silent := by
  intro o ho
  rw [List.map_append] at ho
  rcases List.mem_append.1 ho with ho | ho
  · exact silent_of_interruption o ho
  · rw [List.mem_singleton.1 ho]
    exact ⟨rfl, fun _ => rfl⟩

end Occurrence

/-- What happens on a descriptor before a descriptor of that number is accepted again. -/
def life (fd : Fd) : List Occurrence → List Occurrence
  | [] => []
  | o :: rest =>
    if o.accepts fd then [] else if o.socket? = some fd then o :: life fd rest else life fd rest

section
variable {fd : Fd} {after new : List Occurrence}

theorem life_append (h : ∀ o ∈ after, o.accepts fd = false) :
    life fd (after ++ new) = life fd after ++ life fd new := by
  induction after with
  | nil => rfl
  | cons o after ih =>
    obtain ⟨ho, h⟩ := List.forall_mem_cons.1 h
    simp only [List.cons_append, life, ho, ih h, Bool.false_eq_true, if_false]
    split <;> rfl

theorem life_append_of_accepts (h : ∃ o ∈ after, o.accepts fd) :
    life fd (after ++ new) = life fd after := by
  induction after with
  | nil => simp at h
  | cons o after ih =>
    by_cases ho : o.accepts fd
    · simp [life, ho]
    · have h : ∃ o ∈ after, o.accepts fd := by simpa [ho] using h
      simp only [List.cons_append, life, ih h]

theorem life_append_off (h : life fd new = []) : life fd (after ++ new) = life fd after := by
  by_cases ha : ∃ o ∈ after, o.accepts fd
  · exact life_append_of_accepts ha
  · rw [life_append (by simpa using ha), h, List.append_nil]

theorem life_on (h : ∀ o ∈ new, o.socket? = some fd) : life fd new = new := by
  induction new with
  | nil => rfl
  | cons o new ih =>
    obtain ⟨ho, h⟩ := List.forall_mem_cons.1 h
    simp only [life, Occurrence.not_accepts_of_socket? ho, ho, ih h]
    rfl

theorem life_off (h : ∀ o ∈ new, o.socket? ≠ some fd) : life fd new = [] := by
  induction new with
  | nil => rfl
  | cons o new ih =>
    obtain ⟨ho, h⟩ := List.forall_mem_cons.1 h
    simp only [life, ho, ih h, if_false]
    split <;> rfl

end

/-- Whether something happens on one descriptor alone. -/
def Confined (fd : Fd) (occurrences : List Occurrence) : Prop :=
  ∀ o ∈ occurrences, o.socket? = some fd ∨ o.Silent

namespace Confined
variable {fd : Fd} {occurrences more : List Occurrence}

theorem of_on (h : ∀ o ∈ occurrences, o.socket? = some fd) : Confined fd occurrences :=
  fun o ho => .inl (h o ho)

theorem append (H : Confined fd occurrences) (H' : Confined fd more) :
    Confined fd (occurrences ++ more) := List.forall_mem_append.2 ⟨H, H'⟩

theorem cons {o : Occurrence} (h : o.socket? = some fd) (H : Confined fd occurrences) :
    Confined fd (o :: occurrences) := List.forall_mem_cons.2 ⟨.inl h, H⟩

theorem accepts (H : Confined fd occurrences) (fd' : Fd) :
    ∀ o ∈ occurrences, o.accepts fd' = false := fun o ho =>
  (H o ho).elim (fun h => Occurrence.not_accepts_of_socket? h fd') fun h => h.2 fd'

theorem life_append (H : Confined fd occurrences) (fd' : Fd) :
    life fd' (occurrences ++ more) = life fd' occurrences ++ life fd' more :=
  OnePage.life_append (H.accepts fd')

theorem life_eq_nil {fd' : Fd} (H : Confined fd occurrences) (hne : fd' ≠ fd) :
    life fd' occurrences = [] := life_off fun o ho h => by
  rcases H o ho with h' | ⟨h', -⟩ <;> rw [h'] at h <;> cases h
  exact hne rfl

theorem life_cons {o : Occurrence} (h : o.socket? = some fd) :
    life fd (o :: occurrences) = o :: life fd occurrences := by
  simp [life, Occurrence.not_accepts_of_socket? h, h]

end Confined

section
variable {told : List Call}

/-- Messages are on no descriptor. -/
theorem Confined.messages (ht : ∀ call ∈ told, call.isMessage) {fd : Fd} :
    Confined fd (told.map .call) := fun o ho => by
  obtain ⟨call, hcall, rfl⟩ := List.mem_map.1 ho
  exact .inr (Occurrence.silent_of_isMessage (ht call hcall))

theorem life_messages (ht : ∀ call ∈ told, call.isMessage) (fd : Fd) :
    life fd (told.map .call) = [] := life_off fun o ho => by
  obtain ⟨call, hcall, rfl⟩ := List.mem_map.1 ho
  rw [(Occurrence.silent_of_isMessage (ht call hcall)).1]
  exact (Option.some_ne_none fd).symm

theorem LogSink.Tells.confined {sink : LogSink} {messages : List (Severity × String)}
    (H : sink.Tells messages told) (fd : Fd) : Confined fd (told.map .call) :=
  .messages H.isMessage

theorem LogSink.Tells.life {sink : LogSink} {messages : List (Severity × String)}
    (H : sink.Tells messages told) (fd : Fd) : life fd (told.map .call) = [] :=
  life_messages H.isMessage fd

end

theorem EventQueue.Registration.socket {fd : Fd} {token : Token} {interest : Interest}
    {result : Outcome} {calls : List Call} (H : Registration fd token interest result calls) :
    ∀ o ∈ calls.map Occurrence.call, o.socket? = some fd := by
  cases H <;> simp [Occurrence.socket?]

theorem Occurrence.socket_operations (fd : Fd) (ops : List Operation) :
    ∀ o ∈ (ops.map (Call.operation fd)).map Occurrence.call, o.socket? = some fd := by
  simp [Occurrence.socket?]

section
variable {fd : Fd} {done told rest : List Call}

/-- A turn, with the operations that are made in it and what they lead to. -/
theorem Confined.turn (t : Turn) (hs : t.before.socket = fd) (ops : List Operation)
    (H : Confined fd (rest.map .call)) :
    Confined fd (.turn t :: (ops.map (Call.operation fd) ++ rest).map .call) := by
  rw [List.map_append]
  exact .cons (congrArg some hs) ((of_on (Occurrence.socket_operations fd ops)).append H)

theorem life_turn (t : Turn) (hs : t.before.socket = fd) (ops : List Operation) :
    life fd (.turn t :: (ops.map (Call.operation fd) ++ rest).map .call) =
      .turn t :: ((ops.map (Call.operation fd)).map .call ++ life fd (rest.map .call)) := by
  have hturn : (Occurrence.turn t).socket? = some fd := congrArg some hs
  have hops := Occurrence.socket_operations fd ops
  rw [Confined.life_cons hturn, List.map_append, (Confined.of_on hops).life_append, life_on hops]

/-- Messages come between what is done on a socket and its close. -/
theorem Confined.farewell (hdone : ∀ o ∈ done.map Occurrence.call, o.socket? = some fd)
    (ht : ∀ call ∈ told, call.isMessage) :
    Confined fd ((done ++ told ++ [Call.close fd]).map .call) := by
  have hclose : Confined fd [.call (.close fd)] := .of_on (by simp [Occurrence.socket?])
  rw [List.map_append, List.map_append]
  exact ((of_on hdone).append (messages ht)).append hclose

theorem life_farewell (hdone : ∀ o ∈ done.map Occurrence.call, o.socket? = some fd)
    (ht : ∀ call ∈ told, call.isMessage) :
    life fd ((done ++ told ++ [Call.close fd]).map .call) =
      (done ++ [Call.close fd]).map .call := by
  have hclose : life fd [.call (.close fd)] = [.call (.close fd)] :=
    life_on (by simp [Occurrence.socket?])
  have H := Confined.of_on hdone
  rw [List.map_append, List.map_append, (H.append (.messages ht)).life_append, H.life_append,
    life_on hdone, life_messages ht, List.append_nil, List.map_append]
  exact congrArg _ hclose

end

/-- What happens on a socket between its last turn and the closing of its connection. -/
theorem Server.Ending.life {log : LogSink} {token : Token} {c last : Connection}
    {verdict : Verdict} {ending : List Call}
    (H : Server.Ending log token c verdict ending last) :
    last.socket = c.socket ∧ Confined c.socket (ending.map .call) ∧
      ((verdict = .close ∨ ∃ cause, verdict = .fail cause) ∧
          life c.socket (ending.map .call) = [] ∨
        verdict = .rearm ∧ ∃ e, life c.socket (ending.map .call) =
          [Call.modify c.socket token c.interest.conditions (.error e)].map .call) := by
  cases H with
  | close => exact ⟨rfl, .of_on (by simp), .inl ⟨.inl rfl, rfl⟩⟩
  | fail ht => exact ⟨rfl, ht.confined _, .inl ⟨.inr ⟨_, rfl⟩, ht.life _⟩⟩
  | @rearm e _ ht =>
    refine ⟨rfl, .cons rfl (ht.confined _), .inr ⟨rfl, e, ?_⟩⟩
    rw [List.map_cons, Confined.life_cons rfl, ht.life]
    rfl

/-- What happens on a socket while its connection is closed. -/
theorem Server.Closing.life {log : LogSink} {seconds zone : Int} {c : Connection}
    {closing : List Call} (H : Server.Closing log seconds zone c closing) :
    Confined c.socket (closing.map .call) ∧ ∃ deleted, life c.socket (closing.map .call) =
        [Call.delete c.socket deleted, .close c.socket].map .call := by
  obtain @⟨deleted, told, ht⟩ := H
  have hdelete : ∀ o ∈ [Call.delete c.socket deleted].map Occurrence.call,
      o.socket? = some c.socket := by simp [Occurrence.socket?]
  exact ⟨.farewell hdelete ht.isMessage, deleted, life_farewell hdelete ht.isMessage⟩

/-- What has happened since a descriptor was accepted. -/
def Since (history : List Occurrence) (fd : Fd) (after : List Occurrence) : Prop :=
  ∃ listener before, history = before ++ .call (.accept listener (.ok fd)) :: after

/-- A descriptor has been accepted, and since then `occurrences` have happened on what that call
opened. -/
def Lifetime (history : List Occurrence) (fd : Fd) (occurrences : List Occurrence) : Prop :=
  ∃ after, Since history fd after ∧ occurrences = life fd after

/-- A descriptor has been accepted, and of what that call opened all that has happened until now is
`occurrences`. -/
def Current (history : List Occurrence) (fd : Fd) (occurrences : List Occurrence) : Prop :=
  ∃ after, Since history fd after ∧ (∀ o ∈ after, o.accepts fd = false) ∧
    occurrences = life fd after

namespace Since
variable {history new after : List Occurrence} {fd : Fd}

theorem of_getElem? {listener : Fd} {n : Nat}
    (h : history[n]? = some (.call (.accept listener (.ok fd)))) :
    Since history fd (history.drop (n + 1)) := by
  obtain ⟨hn, h⟩ := List.getElem?_eq_some_iff.1 h
  refine ⟨listener, history.take n, ?_⟩
  rw [← h, ← List.drop_eq_getElem_cons hn, List.take_append_drop]

theorem append (H : Since history fd after) (new : List Occurrence) :
    Since (history ++ new) fd (after ++ new) := by
  obtain ⟨listener, before, rfl⟩ := H
  exact ⟨listener, before, by simp⟩

theorem of_append (H : Since (history ++ new) fd after) :
    (∃ a, Since history fd a ∧ after = a ++ new) ∨ Since new fd after := by
  obtain ⟨listener, before, h⟩ := H
  rcases List.append_eq_append_iff.1 h with ⟨a, rfl, hnew⟩ | ⟨c, rfl, hafter⟩
  · exact .inr ⟨listener, a, hnew⟩
  · cases c with
    | nil => exact .inr ⟨listener, [], hafter.symm⟩
    | cons o c =>
      obtain ⟨rfl, rfl⟩ := List.cons_eq_cons.1 hafter
      exact .inl ⟨c, ⟨listener, before, rfl⟩, rfl⟩

theorem accepts (H : Since history fd after) : ∃ o ∈ history, o.accepts fd := by
  obtain ⟨listener, before, rfl⟩ := H
  exact ⟨_, List.mem_append_right _ (List.mem_cons_self ..), by simp [Occurrence.accepts]⟩

theorem of_cons {listener fd' : Fd} (H : Since (.call (.accept listener (.ok fd)) :: new) fd' after)
    (hnew : ∀ o ∈ new, o.accepts fd' = false) : fd' = fd ∧ after = new := by
  obtain ⟨listener', before, h⟩ := H
  cases before with
  | nil =>
    obtain ⟨ho, rfl⟩ := List.cons_eq_cons.1 h
    cases ho
    exact ⟨rfl, rfl⟩
  | cons o before =>
    obtain ⟨rfl, rfl⟩ := List.cons_eq_cons.1 h
    have := hnew _ (List.mem_append_right _ (List.mem_cons_self ..))
    simp [Occurrence.accepts] at this

/-- Where nothing is accepted, only what was accepted before has gone on. -/
theorem of_append_quiet (H : Since (history ++ new) fd after)
    (hnew : ∀ o ∈ new, o.accepts fd = false) : ∃ a, Since history fd a ∧ after = a ++ new := by
  rcases H.of_append with h | h
  · exact h
  · obtain ⟨o, ho, ha⟩ := h.accepts
    rw [hnew o ho] at ha
    cases ha

end Since

section
variable {history before rest after : List Occurrence} {listener fd fd' : Fd}

/-- Where one descriptor is accepted, no other is. -/
theorem not_accepts_of_ne (hbefore : ∀ o ∈ before, o.Silent) (hrest : Confined fd rest)
    (hne : fd' ≠ fd) :
    ∀ o ∈ before ++ .call (.accept listener (.ok fd)) :: rest, o.accepts fd' = false := by
  intro o ho
  rcases List.mem_append.1 ho with ho | ho
  · exact (hbefore o ho).2 fd'
  · rcases List.mem_cons.1 ho with rfl | ho
    · simpa [Occurrence.accepts] using hne.symm
    · exact hrest.accepts fd' o ho

/-- What was accepted before has no part in what is accepted now. -/
theorem life_accept (hbefore : ∀ o ∈ before, o.Silent) (hrest : Confined fd rest) :
    life fd' (before ++ .call (.accept listener (.ok fd)) :: rest) = [] := by
  have hnone : life fd' before = [] := by
    apply life_off
    intro o ho
    rw [(hbefore o ho).1]
    exact (Option.some_ne_none fd').symm
  rw [life_append fun o ho => (hbefore o ho).2 fd', hnone, List.nil_append]
  by_cases hfd : fd' = fd
  · simp [life, Occurrence.accepts, hfd]
  · simp [life, Occurrence.accepts, Occurrence.socket?, Ne.symm hfd, hrest.life_eq_nil hfd]

theorem Since.of_accept
    (H : Since (history ++ (before ++ .call (.accept listener (.ok fd)) :: rest)) fd' after)
    (hbefore : ∀ o ∈ before, o.Silent) (hrest : Confined fd rest) :
    (∃ a, Since history fd' a ∧
      after = a ++ (before ++ .call (.accept listener (.ok fd)) :: rest)) ∨
    fd' = fd ∧ after = rest := by
  rcases H.of_append with h | h
  · exact .inl h
  rcases h.of_append with ⟨a, ha, -⟩ | h
  · obtain ⟨o, ho, ha⟩ := ha.accepts
    rw [(hbefore o ho).2 fd'] at ha
    cases ha
  · exact .inr (h.of_cons (hrest.accepts fd'))

end
end OnePage
