import OnePage.Proofs.Coherence

/-! # Sockets come and go

Every socket that is accepted is closed exactly once, and not while its connection is in the table.
One that was registered is taken off the queue right before, with nothing but messages in between;
one that could not be set up is closed at once and never enters the table. So the sockets that have
been accepted are at all times as many as those that have been closed and those in the table. -/

namespace OnePage
open EventQueue

namespace Occurrence

def isAcceptance : Occurrence → Bool
  | call (.accept _ (.ok _)) => true
  | _ => false

def isClosing : Occurrence → Bool
  | call (.close _) => true
  | _ => false

def isDeletion : Occurrence → Bool
  | call (.delete ..) => true
  | _ => false

end Occurrence

/-- How many sockets are accepted. -/
def acceptances (L : List Occurrence) : Nat := L.countP Occurrence.isAcceptance

def closings (L : List Occurrence) : Nat := L.countP Occurrence.isClosing

/-- How often a descriptor is taken off the queue, or tried to. -/
def deletions (L : List Occurrence) : Nat := L.countP Occurrence.isDeletion

/-- Whether no socket is accepted, and nothing closed or taken off the queue. -/
def Quiet (L : List Occurrence) : Prop :=
  ∀ o ∈ L, o.isAcceptance = false ∧ o.isClosing = false ∧ o.isDeletion = false

section
variable {L L' : List Occurrence}

@[simp] theorem acceptances_append (L L' : List Occurrence) :
    acceptances (L ++ L') = acceptances L + acceptances L' := List.countP_append

@[simp] theorem closings_append (L L' : List Occurrence) :
    closings (L ++ L') = closings L + closings L' := List.countP_append

@[simp] theorem deletions_append (L L' : List Occurrence) :
    deletions (L ++ L') = deletions L + deletions L' := List.countP_append

theorem acceptances_cons (o : Occurrence) (L : List Occurrence) :
    acceptances (o :: L) = acceptances L + if o.isAcceptance then 1 else 0 := List.countP_cons

theorem closings_cons (o : Occurrence) (L : List Occurrence) :
    closings (o :: L) = closings L + if o.isClosing then 1 else 0 := List.countP_cons

theorem closings_eq_zero : closings L = 0 ↔ ∀ o ∈ L, o.isClosing = false := by
  simp [closings]

namespace Quiet

theorem nil : Quiet [] := List.forall_mem_nil _

theorem append (H : Quiet L) (H' : Quiet L') : Quiet (L ++ L') := List.forall_mem_append.2 ⟨H, H'⟩

theorem cons {o : Occurrence}
    (h : o.isAcceptance = false ∧ o.isClosing = false ∧ o.isDeletion = false) (H : Quiet L) :
    Quiet (o :: L) := List.forall_mem_cons.2 ⟨h, H⟩

theorem acceptances (H : Quiet L) : acceptances L = 0 := by
  simp only [OnePage.acceptances, List.countP_eq_zero]
  intro o ho
  simp [(H o ho).1]

theorem closings (H : Quiet L) : closings L = 0 := closings_eq_zero.2 fun o ho => (H o ho).2.1

theorem deletions (H : Quiet L) : deletions L = 0 := by
  simp only [OnePage.deletions, List.countP_eq_zero]
  intro o ho
  simp [(H o ho).2.2]

theorem messages {calls : List Call} (h : ∀ call ∈ calls, call.isMessage) :
    Quiet (calls.map .call) := by
  intro o ho
  obtain ⟨call, hcall, rfl⟩ := List.mem_map.1 ho
  have hm := h call hcall
  cases call with
  | print | log => exact ⟨rfl, rfl, rfl⟩
  | _ => cases hm

theorem operations (fd : Fd) (ops : List Operation) :
    Quiet ((ops.map (Call.operation fd)).map .call) := by
  intro o ho
  simp only [List.map_map, List.mem_map, Function.comp_apply] at ho
  obtain ⟨op, -, rfl⟩ := ho
  exact ⟨rfl, rfl, rfl⟩

theorem interruptions (listener : Fd) (n : Nat) :
    Quiet ((Sys.interruptions listener n).map .call) := by
  intro o ho
  obtain ⟨call, hcall, rfl⟩ := List.mem_map.1 ho
  rw [List.eq_of_mem_replicate hcall]
  exact ⟨rfl, rfl, rfl⟩

theorem modified (fd : Fd) (token : Token) (conditions : Conditions) (result : Outcome) :
    Quiet ([Call.modify fd token conditions result].map .call) := cons ⟨rfl, rfl, rfl⟩ nil

theorem registration {fd : Fd} {token : Token} {interest : Interest} {result : Outcome}
    {calls : List Call} (H : Registration fd token interest result calls) :
    Quiet (calls.map .call) := by
  cases H with
  | added | refused => exact cons ⟨rfl, rfl, rfl⟩ nil
  | changed => exact cons ⟨rfl, rfl, rfl⟩ (cons ⟨rfl, rfl, rfl⟩ nil)

end Quiet

end

/-! ## What comes before a close -/

theorem split_append {o : Occurrence} {history new before after : List Occurrence}
    (h : history ++ new = before ++ o :: after) :
    (∃ a, history = before ++ o :: a) ∨ ∃ b, before = history ++ b ∧ new = b ++ o :: after := by
  rcases List.append_eq_append_iff.1 h with ⟨b, rfl, hnew⟩ | ⟨c, rfl, hc⟩
  · exact .inr ⟨b, rfl, hnew⟩
  · cases c with
    | nil => exact .inr ⟨[], by simp, hc.symm⟩
    | cons o' c =>
      obtain ⟨rfl, -⟩ := List.cons_eq_cons.1 hc
      exact .inl ⟨c, rfl⟩

namespace SetUp
variable {fd : Fd} {registered : Bool} {setup : List Call}

theorem quiet (H : SetUp fd registered setup) : Quiet (setup.map .call) := by
  cases H with
  | registered hr | unregistered hr => exact .cons ⟨rfl, rfl, rfl⟩ (.registration hr)
  | blocking => exact .cons ⟨rfl, rfl, rfl⟩ .nil

theorem operations (H : SetUp fd registered setup) : operations (setup.map .call) = [] := by
  cases H with
  | registered hr | unregistered hr => exact hr.operations
  | blocking => rfl

end SetUp

/-- What comes right before a socket is closed. -/
inductive Parting (fd : Fd) : List Occurrence → Prop
  | deleted {before : List Occurrence} {deleted : Outcome} {told : List Call}
    (ht : ∀ call ∈ told, call.isMessage) :
    Parting fd (before ++ (Call.delete fd deleted :: told).map .call)
  | turnedAway {before : List Occurrence} {listener : Fd} {setup told : List Call}
    (hs : SetUp fd false setup) (ht : ∀ call ∈ told, call.isMessage) :
    Parting fd (before ++ (Call.accept listener (.ok fd) :: (setup ++ told)).map .call)

theorem Parting.prepend {fd : Fd} {before : List Occurrence} (H : Parting fd before)
    (history : List Occurrence) : Parting fd (history ++ before) := by
  cases H with
  | deleted ht => rw [← List.append_assoc]; exact .deleted ht
  | turnedAway hs ht => rw [← List.append_assoc]; exact .turnedAway hs ht

namespace Server

/-- What a move is to the sockets. At most one is closed, which is the last that happens. -/
inductive Ledger (s : Server) : List Occurrence → Server → Prop
  | keep {new : List Occurrence} {s' : Server} (hc : closings new = 0)
    (hs : acceptances new + s.connections.size = s'.connections.size) : Ledger s new s'
  | close {fd : Fd} {before : List Occurrence} {s' : Server} (hp : Parting fd before)
    (hc : closings before = 0)
    (hs : acceptances before + s.connections.size = s'.connections.size + 1) :
    Ledger s (before ++ [.call (.close fd)]) s'

theorem Ledger.quiet {s s' : Server} {new : List Occurrence} (H : Quiet new)
    (hs : s'.connections.size = s.connections.size) : Ledger s new s' :=
  .keep H.closings (by rw [H.acceptances, hs, Nat.zero_add])

theorem Ledger.closings_le {s s' : Server} {new : List Occurrence} (H : Ledger s new s') :
    closings new ≤ 1 := by
  cases H with
  | keep hc => simp [hc]
  | close hp hc =>
    rw [closings_append, hc]
    exact Nat.le_refl 1

/-- What is accepted is in the table then, unless it is closed. -/
theorem Ledger.balance {s s' : Server} {new : List Occurrence} (H : Ledger s new s') :
    acceptances new + s.connections.size = s'.connections.size + closings new := by
  cases H with
  | keep hc hs => rw [hc, hs, Nat.add_zero]
  | @close fd before _ hp hc hs =>
    have hclosing : closings [.call (.close fd)] = 1 := rfl
    have hacceptance : acceptances [.call (.close fd)] = 0 := rfl
    rw [acceptances_append, closings_append]
    omega

theorem size_insert_of_get? {s : Server} {token : Token} {c c' : Connection}
    (ht : s.connections.get? token = some c) :
    (s.connections.insert token c').size = s.connections.size := by
  simp [Table.size_insert, ht]

theorem size_erase_of_get? {s : Server} {token : Token} {c : Connection}
    (ht : s.connections.get? token = some c) :
    s.connections.size = (s.connections.erase token).size + 1 := by
  have hpos := Table.size_pos_of_get? ht
  simp only [Table.size_erase, ht, Option.isSome_some, if_true]
  omega

theorem Registered.get?_nextToken {s : Server} {k : Kernel} (H : Registered s k) :
    s.connections.get? s.nextToken = none :=
  Option.eq_none_iff_forall_ne_some.2 fun _ h => Nat.lt_irrefl _ (H.token h).2

theorem Ending.quiet {log : LogSink} {token : Token} {c last : Connection} {verdict : Verdict}
    {ending : List Call} (H : Ending log token c verdict ending last) :
    Quiet (ending.map .call) := by
  cases H with
  | close => exact .nil
  | fail ht => exact .messages ht.isMessage
  | rearm ht => exact .cons ⟨rfl, rfl, rfl⟩ (.messages ht.isMessage)

/-- A connection that leaves the table is closed after it was taken off the queue. -/
theorem Closing.ledger {log : LogSink} {seconds zone : Int} {c : Connection}
    {closing : List Call} {s s' : Server} {before : List Occurrence}
    (H : Closing log seconds zone c closing) (hq : Quiet before)
    (hs : s.connections.size = s'.connections.size + 1) :
    Ledger s (before ++ closing.map .call) s' := by
  obtain @⟨deleted, told, ht⟩ := H
  have htold : Quiet (told.map .call) := .messages ht.isMessage
  have h : before ++ (Call.delete c.socket deleted :: (told ++ [.close c.socket])).map .call =
      (before ++ (Call.delete c.socket deleted :: told).map .call) ++
        [.call (.close c.socket)] := by
    simp
  rw [h]
  refine .close (.deleted ht.isMessage) ?_ ?_
  · rw [closings_append, hq.closings, List.map_cons, closings_cons, htold.closings]
    rfl
  · rw [acceptances_append, hq.acceptances, List.map_cons, acceptances_cons, htold.acceptances]
    simpa [Occurrence.isAcceptance] using hs

/-- A socket that cannot be set up is closed at once. -/
theorem turnAway_ledger {s s' : Server} {listener fd : Fd} {n : Nat} {setup told : List Call}
    (H : SetUp fd false setup) (ht : ∀ call ∈ told, call.isMessage)
    (hs : s'.connections.size = s.connections.size) :
    Ledger s ((Sys.interruptions listener n ++
      Call.accept listener (.ok fd) :: (setup ++ told ++ [Call.close fd])).map .call) s' := by
  have hsetup := H.quiet
  have htold : Quiet (told.map .call) := .messages ht
  have hn := Quiet.interruptions listener n
  have h : (Sys.interruptions listener n ++
      Call.accept listener (.ok fd) :: (setup ++ told ++ [Call.close fd])).map Occurrence.call =
      ((Sys.interruptions listener n).map .call ++
        (Call.accept listener (.ok fd) :: (setup ++ told)).map .call) ++ [.call (.close fd)] := by
    simp
  rw [h]
  refine .close (.turnedAway H ht) ?_ ?_
  · rw [closings_append, hn.closings, List.map_cons, closings_cons, List.map_append,
      closings_append, hsetup.closings, htold.closings]
    rfl
  · rw [acceptances_append, hn.acceptances, List.map_cons, acceptances_cons, List.map_append,
      acceptances_append, hsetup.acceptances, htold.acceptances, hs]
    simp [Occurrence.isAcceptance, Nat.add_comm]

theorem Move.ledger {s s' : Server} {k k' : Kernel} {new : List Occurrence}
    (H : Move s k new s' k') (R : Registered s k) : Ledger s new s' := by
  cases H with
  | tell ht => exact .quiet (.messages ht.isMessage) rfl
  | wait hc =>
    subst hc
    exact .quiet (.cons ⟨rfl, rfl, rfl⟩ .nil) rfl
  | unaccepted hc =>
    subst hc
    rw [List.map_append]
    exact .quiet ((Quiet.interruptions _ _).append (.cons ⟨rfl, rfl, rfl⟩ .nil)) rfl
  | pause hc =>
    subst hc
    exact .keep rfl (Nat.zero_add _)
  | resume hr | unresumed hr => exact .quiet (.registration hr) rfl
  | @adopt _ n fd peer resource now registering calls _ hr hc =>
    have hn := Quiet.interruptions s.listener n
    have hrest : Quiet ((Call.setNonblocking fd (.ok ()) :: registering).map .call) :=
      .cons ⟨rfl, rfl, rfl⟩ (.registration hr)
    rw [hc, List.map_append, List.map_cons]
    refine .keep ?_ ?_
    · rw [closings_append, hn.closings, closings_cons, hrest.closings]
      rfl
    · rw [acceptances_append, hn.acceptances, acceptances_cons, hrest.acceptances,
        Table.size_insert, R.get?_nextToken]
      simp [Occurrence.isAcceptance, Nat.add_comm]
  | refuse _ ht hc =>
    rw [hc]
    exact turnAway_ledger .blocking ht.isMessage rfl
  | unregistered _ hr ht hc =>
    rw [hc]
    exact turnAway_ledger (.unregistered hr) ht.isMessage rfl
  | stay ht _ hc =>
    rw [hc]
    exact .quiet (.cons ⟨rfl, rfl, rfl⟩ (.operations _ _)) (size_insert_of_get? ht)
  | rearm ht _ hc =>
    rw [hc, List.map_append]
    exact .quiet (.cons ⟨rfl, rfl, rfl⟩ ((Quiet.operations _ _).append (.modified _ _ _ _)))
      (size_insert_of_get? ht)
  | finish ht Hh He Hc hc =>
    rw [hc, List.map_append, List.map_append, ← List.cons_append]
    exact Hc.ledger (.cons ⟨rfl, rfl, rfl⟩ ((Quiet.operations _ _).append He.quiet))
      (size_erase_of_get? ht)
  | close ht _ Hc => exact Hc.ledger .nil (size_erase_of_get? ht)

/-- The table and the history agree on how many sockets are open, and no socket has been closed
but as it is to be. -/
structure Balanced (s : Server) (history : List Occurrence) : Prop where
  count : acceptances history = closings history + s.connections.size
  parting {fd : Fd} {before after : List Occurrence}
    (h : history = before ++ .call (.close fd) :: after) : Parting fd before

theorem Balanced.ledger {s s' : Server} {history new : List Occurrence} (H : Balanced s history)
    (Hl : Ledger s new s') : Balanced s' (history ++ new) where
  count := by
    have hcount := H.count
    have hbalance := Hl.balance
    rw [acceptances_append, closings_append]
    omega
  parting := by
    intro fd before after h
    rcases split_append h with ⟨a, rfl⟩ | ⟨b, rfl, hb⟩
    · exact H.parting rfl
    cases Hl with
    | keep hc hs =>
      have hmem : Occurrence.call (.close fd) ∈ new := by simp [hb]
      exact absurd (closings_eq_zero.1 hc _ hmem) Bool.noConfusion
    | close hp hc hs =>
      rcases split_append hb with ⟨a, rfl⟩ | ⟨b', rfl, hb'⟩
      · have hmem : Occurrence.call (.close fd) ∈ b ++ .call (.close fd) :: a := by simp
        exact absurd (closings_eq_zero.1 hc _ hmem) Bool.noConfusion
      · cases b' with
        | nil =>
          cases hb'
          rw [List.append_nil]
          exact hp.prepend history
        | cons o b' =>
          obtain ⟨-, h⟩ := List.cons_eq_cons.1 hb'
          simp at h

end Server

theorem Reachable.balanced {m : Moment} (H : Reachable m) : m.server.Balanced m.history := by
  refine (H.invariant (P := fun s k h => s.Registered k ∧ s.Balanced h) ?_ ?_).2
  · intro _ _ _ _ _ _ hl hw _ hc
    refine ⟨Server.create_registered hl hw hc, ?_⟩
    obtain ⟨queue, calls, rfl, -⟩ := Server.create_spec hc
    exact ⟨rfl, fun h => by simp at h⟩
  · intro _ _ _ _ _ _ H Hm
    exact ⟨H.1.move Hm, H.2.ledger (Hm.ledger H.1)⟩

/-! ## The life of a socket -/

/-- What happens on a socket that has been set up and not been let go. -/
def Admitted (fd : Fd) (L : List Occurrence) : Prop :=
  ∃ setup later, SetUp fd true setup ∧ Quiet later ∧ L = setup.map .call ++ later

/-- What has happened since a socket was accepted that is closed now, and on which nothing has
happened since. -/
inductive Released (fd : Fd) (after : List Occurrence) : Prop
  /-- It could not be set up, and was closed at once. -/
  | turnedAway {setup told : List Call} {rest : List Occurrence} (hs : SetUp fd false setup)
    (ht : ∀ call ∈ told, call.isMessage) (hrest : life fd rest = [])
    (h : after = (setup ++ told).map .call ++ .call (.close fd) :: rest)
  /-- It was taken off the queue, or tried to, and closed right after that. -/
  | dismissed {before rest : List Occurrence} {deleted : Outcome} {told : List Call}
    (hbefore : Admitted fd (life fd before)) (ht : ∀ call ∈ told, call.isMessage)
    (hrest : life fd rest = [])
    (h : after = before ++ (Call.delete fd deleted :: told).map .call ++ .call (.close fd) :: rest)

/-- Whether what was accepted ahead of `after` is in the table. -/
def Server.Holds (s : Server) (fd : Fd) (after : List Occurrence) : Prop :=
  (∀ o ∈ after, o.accepts fd = false) ∧ ∃ token c, s.connections.get? token = some c ∧ c.socket = fd

section
variable {page : String} {fd : Fd} {token : Token} {c : Connection} {L : List Occurrence}

theorem Admitted.quiet (H : Admitted fd L) : Quiet L := by
  obtain ⟨setup, later, hs, hl, rfl⟩ := H
  exact hs.quiet.append hl

theorem Admitted.append {L' : List Occurrence} (H : Admitted fd L) (hq : Quiet L') :
    Admitted fd (L ++ L') := by
  obtain ⟨setup, later, hs, hl, rfl⟩ := H
  exact ⟨setup, later ++ L', hs, hl.append hq, List.append_assoc ..⟩

theorem Lived.admitted (H : Lived page fd token c L) : Admitted fd L := by
  induction H with
  | registered hr => exact ⟨_, [], .registered hr, .nil, by simp⟩
  | waited _ _ ih => exact ih.append (.cons ⟨rfl, rfl, rfl⟩ (.operations _ _))
  | rearmed _ _ ih =>
    rw [List.map_append]
    exact ih.append (.cons ⟨rfl, rfl, rfl⟩ ((Quiet.operations _ _).append (.modified _ _ _ _)))

/-- A life that is over ends with the close. -/
theorem Ended.letGo (H : Ended page fd L) :
    (∃ setup, SetUp fd false setup ∧ L = setup.map .call ++ [.call (.close fd)]) ∨
    ∃ L' deleted, Admitted fd L' ∧
      L = (L' ++ [.call (.delete fd deleted)]) ++ [.call (.close fd)] := by
  cases H with
  | refused => exact .inl ⟨_, .blocking, rfl⟩
  | unregistered hr => exact .inl ⟨_, .unregistered hr, by simp⟩
  | @closed _ _ L deleted H => exact .inr ⟨L, deleted, H.admitted, by simp⟩
  | @finished _ c c' L ready files now _ _ ops verdict deleted H =>
    refine .inr ⟨_, deleted, H.admitted.append
      (.cons (o := .turn ⟨c, ready, files, now, verdict, c'⟩) ⟨rfl, rfl, rfl⟩
        (.operations fd ops)), by simp⟩
  | @unarmed token c c' L ready files now _ _ ops e deleted H =>
    refine .inr ⟨_, deleted, H.admitted.append
      (.cons (o := .turn ⟨c, ready, files, now, .rearm, c'⟩) ⟨rfl, rfl, rfl⟩
        ((Quiet.operations fd ops).append
          (.modified fd token c'.interest.conditions (.error e)))), by simp⟩

/-- What is in a life is found among all that has happened. -/
theorem life_eq_append_cons {after A B : List Occurrence} {o : Occurrence}
    (h : life fd after = A ++ o :: B) :
    ∃ before rest, after = before ++ o :: rest ∧ life fd before = A ∧ life fd rest = B ∧
      ∀ o' ∈ before, o'.accepts fd = false := by
  induction after generalizing A with
  | nil => simp [life] at h
  | cons o' after ih =>
    rw [life] at h
    split at h
    · simp at h
    rename_i ha
    have ha : o'.accepts fd = false := by simpa using ha
    split at h
    · rename_i hs
      cases A with
      | nil =>
        obtain ⟨rfl, hB⟩ := List.cons_eq_cons.1 h
        exact ⟨[], after, rfl, rfl, hB, List.forall_mem_nil _⟩
      | cons o'' A =>
        obtain ⟨rfl, h'⟩ := List.cons_eq_cons.1 h
        obtain ⟨before, rest, rfl, hA, hB, hb⟩ := ih h'
        refine ⟨o' :: before, rest, rfl, ?_, hB, List.forall_mem_cons.2 ⟨ha, hb⟩⟩
        rw [Confined.life_cons hs, hA]
    · rename_i hs
      obtain ⟨before, rest, rfl, hA, hB, hb⟩ := ih h
      refine ⟨o' :: before, rest, rfl, ?_, hB, List.forall_mem_cons.2 ⟨ha, hb⟩⟩
      simp [life, ha, hs, hA]

/-- What comes right before a close has happened since the socket was accepted. -/
theorem Parting.since {history before : List Occurrence} (H : Parting fd history)
    (hs : Since history fd before) (hb : ∀ o ∈ before, o.accepts fd = false) :
    (∃ earlier deleted told, (∀ call ∈ told, Call.isMessage call) ∧
      before = earlier ++ (Call.delete fd deleted :: told).map .call) ∨
    ∃ setup told, SetUp fd false setup ∧ (∀ call ∈ told, Call.isMessage call) ∧
      before = (setup ++ told).map .call := by
  cases H with
  | @deleted earlier deleted told ht =>
    have htold : Confined fd ((Call.delete fd deleted :: told).map .call) :=
      .cons rfl (.messages ht)
    obtain ⟨a, -, rfl⟩ := hs.of_append_quiet (htold.accepts fd)
    exact .inl ⟨a, deleted, told, ht, rfl⟩
  | @turnedAway earlier listener setup told hsetup ht =>
    have hrest : Confined fd ((setup ++ told).map .call) := by
      rw [List.map_append]
      exact (Confined.of_on hsetup.socket).append (.messages ht)
    rcases hs.of_append with ⟨a, -, rfl⟩ | hs
    · have hmem : Occurrence.call (.accept listener (.ok fd)) ∈
          a ++ (Call.accept listener (.ok fd) :: (setup ++ told)).map .call := by simp
      exact absurd (hb _ hmem) (by simp [Occurrence.accepts])
    · obtain ⟨-, rfl⟩ := hs.of_cons (hrest.accepts fd)
      exact .inr ⟨setup, told, hsetup, ht, rfl⟩

end

/-- What has been let go was let go in the order that is to be. -/
theorem Ended.released {page : String} {fd : Fd} {history after : List Occurrence}
    (H : Ended page fd (life fd after)) (hs : Since history fd after)
    (hp : ∀ before rest, history = before ++ .call (.close fd) :: rest → Parting fd before) :
    Released fd after ∧ closings (life fd after) = 1 := by
  obtain ⟨A, hA, hA'⟩ : ∃ A, life fd after = A ++ [.call (.close fd)] ∧
      ((∃ setup, SetUp fd false setup ∧ A = setup.map .call) ∨
        ∃ L deleted, Admitted fd L ∧ A = L ++ [.call (.delete fd deleted)]) := by
    rcases H.letGo with ⟨setup, hsetup, h⟩ | ⟨L, deleted, hL, h⟩
    · exact ⟨_, h, .inl ⟨setup, hsetup, rfl⟩⟩
    · exact ⟨_, h, .inr ⟨L, deleted, hL, rfl⟩⟩
  obtain ⟨before, rest, rfl, hbefore, hrest, hb⟩ := life_eq_append_cons hA
  obtain ⟨listener, earlier, rfl⟩ := hs
  have hparting : Parting fd (earlier ++ .call (.accept listener (.ok fd)) :: before) :=
    hp _ rest (by simp)
  have hcount : closings (A ++ [.call (.close fd)]) = 1 := by
    have hquiet : closings A = 0 := by
      rcases hA' with ⟨setup, hsetup, rfl⟩ | ⟨L, deleted, hL, rfl⟩
      · exact hsetup.quiet.closings
      · rw [closings_append, hL.quiet.closings]
        rfl
    rw [closings_append, hquiet]
    rfl
  refine ⟨?_, hA ▸ hcount⟩
  rcases hparting.since ⟨listener, earlier, rfl⟩ hb with
    ⟨e, deleted, told, ht, rfl⟩ | ⟨setup, told, hsetup, ht, rfl⟩
  · have hlife : life fd (e ++ (Call.delete fd deleted :: told).map .call) =
        life fd e ++ [.call (.delete fd deleted)] := by
      rw [life_append fun o ho => hb o (List.mem_append_left _ ho), List.map_cons,
        Confined.life_cons rfl, life_messages ht]
    rw [hlife] at hbefore
    rcases hA' with ⟨setup, hsetup, rfl⟩ | ⟨L, deleted', hL, rfl⟩
    · have hnone := hsetup.quiet.deletions
      rw [← hbefore, deletions_append] at hnone
      exact absurd hnone (by simp [deletions, Occurrence.isDeletion])
    · obtain ⟨rfl, -⟩ := List.append_inj' hbefore rfl
      exact .dismissed hL ht hrest rfl
  · exact .turnedAway hsetup ht hrest rfl

/-! ## When a server stops -/

namespace Server

/-- Whether a step leaves the table as it is. -/
def SparesTable {α : Type} (f : Serving α) : Prop :=
  ∀ s k, (f s k).1.2.connections = s.connections

namespace SparesTable
variable {α β : Type}

theorem pure (a : α) : SparesTable (Pure.pure a) := fun _ _ => rfl

theorem lift (x : Sys α) : SparesTable (liftM x) := fun _ _ => rfl

theorem bind {x : Serving α} {f : α → Serving β} (H : SparesTable x)
    (H' : ∀ a, SparesTable (f a)) : SparesTable (x >>= f) := fun s k => (H' _ _ _).trans (H s k)

theorem warn (message : String) : SparesTable (Server.warn message) := by
  intro s k
  obtain ⟨_, _, h, -⟩ := warn_spec message s k
  rw [h]

theorem resume : SparesTable Server.resume := by
  refine bind (fun _ _ => rfl) fun s => (lift _).bind fun result => ?_
  cases result with
  | ok => exact fun _ _ => rfl
  | error e => exact warn _

theorem resumeIfPaused : SparesTable Server.resumeIfPaused := by
  refine bind (fun _ _ => rfl) fun s => ?_
  split
  · exact resume
  · exact pure _

theorem logStats : SparesTable Server.logStats := by
  intro s k
  obtain ⟨_, _, h, -⟩ := logStats_spec s k
  rw [h]

end SparesTable

theorem close_connections (token : Token) (seconds : Int) (s : Server) (k : Kernel) :
    (close token seconds s k).1.2.connections = s.connections.erase token := by
  cases ht : s.connections.get? token with
  | none =>
    rw [close_gone ht]
    refine Table.ext fun t => ?_
    rw [Table.get?_erase]
    split
    · rename_i he
      rw [he, ht]
    · rfl
  | some c =>
    obtain ⟨_, k', -, -, h⟩ := close_spec ht seconds k
    rw [h]
    exact SparesTable.resumeIfPaused _ _

theorem get?_closeAll (seconds : Int) (tokens : List Token) (s : Server) (k : Kernel)
    (token : Token) : (tokens.forM (close · seconds) s k).1.2.connections.get? token =
      if token ∈ tokens then none else s.connections.get? token := by
  induction tokens generalizing s k with
  | nil => rfl
  | cons t tokens ih =>
    refine (ih (close t seconds s k).1.2 (close t seconds s k).2).trans ?_
    rw [close_connections, Table.get?_erase]
    by_cases hmem : token ∈ tokens
    · simp [hmem]
    · by_cases ht : token = t <;> simp [hmem, ht]

/-- What is left after a server has been told to stop. -/
theorem shutDown_connections (s : Server) (k : Kernel) :
    (shutDown s k).1.2.connections = ∅ := by
  have h : (shutDown s k).1.2.connections = ((k.walk.order s.connections.keys).forM
      (close · (k.secondsAt k.trace.size)) s k).1.2.connections := SparesTable.logStats _ _
  rw [h]
  refine Table.ext fun token => ?_
  rw [get?_closeAll, Table.get?_empty]
  split
  · rfl
  · rename_i hmem
    rw [(k.walk.perm _).mem_iff, Table.mem_keys, Table.contains] at hmem
    simpa using hmem

/-- Polling goes wrong only where the wait does, and without a round it does. -/
theorem poll_result (timeout : Option Nanoseconds) (round? : Option Round) (s : Server)
    (k : Kernel) : (∃ e, (poll timeout round? s k).1.1 = .error (.wait e)) ∨
      round? ≠ none ∧ (poll timeout round? s k).1.1 = .ok () := by
  cases round? with
  | none => exact .inl ⟨.EBADF, rfl⟩
  | some round =>
    rw [poll_outcome]
    split
    · exact .inr ⟨Option.some_ne_none round, rfl⟩
    · exact .inl ⟨_, rfl⟩
    · exact .inr ⟨Option.some_ne_none round, rfl⟩

/-- A server ends because waiting fails, or is told to stop and ends with no connections. -/
def Ends (result : (Except ServeError Unit × Server) × Kernel) : Prop :=
  (∃ e, result.1.1 = .error (.wait e)) ∨ result.1.2.connections = ∅

theorem serveRound_ends (round? : Option Round) {next : Serving (Except ServeError Unit)}
    (hnext : round? ≠ none → ∀ s k, Ends (next s k)) (s : Server) (k : Kernel) :
    Ends (serveRound round? next s k) := by
  by_cases hstop : k.stopped = true
  · have h : serveRound round? next s k = shutDown s k := by simp [serveRound, hstop]
    rw [h]
    exact .inr (shutDown_connections s k)
  · rcases poll_result s.nextWait round? s k with ⟨e, he⟩ | ⟨hround, hok⟩
    · refine .inl ⟨e, ?_⟩
      simp [serveRound, hstop, he]
    · have h : serveRound round? next s k = next (poll s.nextWait round? s k).1.2
          (poll s.nextWait round? s k).2 := by simp [serveRound, hstop, hok]
      rw [h]
      exact hnext hround _ _

theorem serveRounds_ends (rounds : List Round) (s : Server) (k : Kernel) :
    Ends (serveRounds rounds s k) := by
  induction rounds generalizing s k with
  | nil => exact serveRound_ends none (fun h => absurd rfl h) s k
  | cons round rounds ih => exact serveRound_ends (some round) (fun _ => ih) s k

theorem serve_ends (rounds : List Round) (s : Server) (k : Kernel) : Ends (serve rounds s k) :=
  serveRounds_ends rounds _ _

end Server

/-- The sockets that have been accepted are those that have been closed and those in the table. One
in the table has been registered, and neither closed nor taken off the queue. One that is not has
been closed once: right after it was taken off the queue, or at once where it could not be set up.
A server that ends because it was told to stop has closed them all. -/
theorem sockets_conserved {m : Moment} (H : Reachable m) :
    acceptances m.history = closings m.history + m.server.connections.size ∧
    (∀ fd after, Since m.history fd after →
      (m.server.Holds fd after → Admitted fd (life fd after) ∧
        closings (life fd after) = 0 ∧ deletions (life fd after) = 0) ∧
      (¬ m.server.Holds fd after → Released fd after ∧ closings (life fd after) = 1)) ∧
    ∀ rounds, let result := Server.serve rounds m.server m.kernel
      (∀ e, result.1.1 ≠ .error (.wait e)) → result.1.2.connections = ∅ ∧
        ∃ acts, (m.run acts).server = result.1.2 ∧ (m.run acts).kernel = result.2 ∧
          acceptances (m.run acts).history = closings (m.run acts).history ∧
          ∀ fd after, Since (m.run acts).history fd after → closings (life fd after) = 1 := by
  have hlife {m : Moment} (H : Reachable m) (fd : Fd) (after : List Occurrence)
      (hs : Since m.history fd after) :
      (m.server.Holds fd after → Admitted fd (life fd after) ∧
        closings (life fd after) = 0 ∧ deletions (life fd after) = 0) ∧
      (¬ m.server.Holds fd after → Released fd after ∧ closings (life fd after) = 1) := by
    have hended (He : Ended m.server.config.indexPath fd (life fd after)) :
        Released fd after ∧ closings (life fd after) = 1 :=
      He.released hs fun before rest h => H.balanced.parting h
    cases H.lives.fate hs with
    | replaced ha He =>
      obtain ⟨o, ho, ha⟩ := ha
      refine ⟨fun hh => ?_, fun _ => hended He⟩
      rw [hh.1 o ho] at ha
      cases ha
    | gone hn He =>
      refine ⟨fun hh => ?_, fun _ => hended He⟩
      obtain ⟨-, token, c, ht, hc⟩ := hh
      exact absurd hc (hn token c ht)
    | living ht hc ha Hl =>
      have hq := Hl.admitted.quiet
      exact ⟨fun _ => ⟨Hl.admitted, hq.closings, hq.deletions⟩,
        fun hn => absurd ⟨ha, _, _, ht, hc⟩ hn⟩
  refine ⟨H.balanced.count, hlife H, ?_⟩
  intro rounds result hresult
  have hempty : result.1.2.connections = ∅ := by
    rcases Server.serve_ends rounds m.server m.kernel with ⟨e, he⟩ | hempty
    · exact absurd he (hresult e)
    · exact hempty
  obtain ⟨acts, hserver, hkernel⟩ := IsRun.serve rounds m
  have H' : Reachable (m.run acts) := H.run acts
  have hnone : (m.run acts).server.connections = ∅ := hserver ▸ hempty
  refine ⟨hempty, acts, hserver.symm, hkernel.symm, ?_, fun fd after hs => ?_⟩
  · have hcount := H'.balanced.count
    rwa [hnone] at hcount
  · have hnot : ¬ (m.run acts).server.Holds fd after := by
      rintro ⟨-, token, c, ht, -⟩
      rw [hnone, Table.get?_empty] at ht
      cases ht
    exact ((hlife H' fd after hs).2 hnot).2

/-- A server with one connection, and the same server told to stop. -/
theorem sockets_conserved_blocked :
    acceptances Moment.blocked.history = 1 ∧ closings Moment.blocked.history = 0 ∧
    Moment.blocked.server.connections.size = 1 ∧
    (∃ after, Since Moment.blocked.history 501 after ∧ Admitted 501 (life 501 after)) ∧
    (Server.serve [{ stop := true }] Moment.blocked.server
      Moment.blocked.kernel).1.2.connections = ∅ := by
  obtain ⟨hcount, hlife, hserve⟩ := sockets_conserved Reachable.blocked
  have hsize : Moment.blocked.server.connections.size = 1 := by decide
  have haccepted : Moment.blocked.history[1]? = some (.call (.accept 3 (.ok 501))) := rfl
  have hs := Since.of_getElem? haccepted
  have hholds : Moment.blocked.server.Holds 501 (Moment.blocked.history.drop 2) :=
    ⟨by decide +kernel, 1, _, rfl, rfl⟩
  have hclosings : closings Moment.blocked.history = 0 := by decide +kernel
  have hstop : (Server.serve [{ stop := true }] Moment.blocked.server
      Moment.blocked.kernel).1.1.isOk = true := by decide +kernel
  refine ⟨by rw [hcount, hclosings, hsize], hclosings, hsize, ⟨_, hs, ((hlife _ _ hs).1 hholds).1⟩,
    (hserve [{ stop := true }] fun e he => ?_).1⟩
  rw [he] at hstop
  cases hstop

end OnePage
