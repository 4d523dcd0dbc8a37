import Mathlib.Algebra.Ring.Nat
import Mathlib.Data.List.Basic
import OnePage.Proofs.Conservation

/-! # Totals

What a server counts is what has happened (`Stats.ofHistory`). Bytes are counted in the turn in
which they are received or written. The other totals are those of the lives of its sockets
(`lives`), of which a move leaves all but one as they are (`Server.Succession`): a connection is
counted when it is registered, and once more, as a request, in the turn in which its line is
there. -/

namespace OnePage

namespace Occurrence

/-- The socket that is accepted. -/
def accepted? : Occurrence → Option Fd
  | call (.accept _ (.ok fd)) => some fd
  | _ => none

theorem accepts_iff {o : Occurrence} {fd : Fd} : o.accepts fd = true ↔ o.accepted? = some fd := by
  unfold accepts accepted?
  split <;> simp

end Occurrence

/-- The lives of all sockets that have been accepted. -/
def lives : List Occurrence → List (List Occurrence)
  | [] => []
  | o :: rest =>
    match o.accepted? with
    | some fd => life fd rest :: lives rest
    | none => lives rest

section
variable {history before after new rest : List Occurrence} {fd listener : Fd} {o : Occurrence}

theorem lives_cons_of_accepted (h : o.accepted? = some fd) :
    lives (o :: rest) = life fd rest :: lives rest := by
  simp [lives, h]

theorem lives_cons_of_not_accepted (h : o.accepted? = none) : lives (o :: rest) = lives rest := by
  simp [lives, h]

theorem Since.of_accepted (h : o.accepted? = some fd) : Since (o :: history) fd history := by
  unfold Occurrence.accepted? at h
  split at h
  · cases h
    exact ⟨_, [], rfl⟩
  · cases h

theorem Lifetime.mem_lives {L : List Occurrence} (H : Lifetime history fd L) :
    L ∈ lives history := by
  obtain ⟨after, ⟨listener, before, rfl⟩, rfl⟩ := H
  induction before with
  | nil => exact List.mem_cons_self ..
  | cons o before ih =>
    rw [List.cons_append]
    cases ho : o.accepted? with
    | none =>
      rw [lives_cons_of_not_accepted ho]
      exact ih
    | some fd' =>
      rw [lives_cons_of_accepted ho]
      exact List.mem_cons_of_mem _ ih

theorem exists_lifetime {L : List Occurrence} (h : L ∈ lives history) :
    ∃ fd, Lifetime history fd L := by
  induction history with
  | nil => cases h
  | cons o history ih =>
    have hlater (h : L ∈ lives history) : ∃ fd, Lifetime (o :: history) fd L := by
      obtain ⟨fd, after, ⟨listener, before, rfl⟩, rfl⟩ := ih h
      exact ⟨fd, after, ⟨listener, o :: before, rfl⟩, rfl⟩
    cases ho : o.accepted? with
    | none => exact hlater (lives_cons_of_not_accepted ho ▸ h)
    | some fd =>
      rw [lives_cons_of_accepted ho] at h
      rcases List.mem_cons.1 h with rfl | h
      · exact ⟨fd, history, .of_accepted ho, rfl⟩
      · exact hlater h

theorem lives_eq_nil (h : ∀ o ∈ new, ∀ fd, o.accepts fd = false) : lives new = [] := by
  induction new with
  | nil => rfl
  | cons o new ih =>
    obtain ⟨ho, h⟩ := List.forall_mem_cons.1 h
    have hnone : o.accepted? = none := by
      refine Option.eq_none_iff_forall_ne_some.2 fun fd hfd => ?_
      have := Occurrence.accepts_iff.2 hfd
      rw [ho fd] at this
      cases this
    rw [lives_cons_of_not_accepted hnone]
    exact ih h

/-- What has no part in the lives there are leaves them as they are. -/
theorem lives_append
    (H : ∀ fd after, Since history fd after → life fd (after ++ new) = life fd after) :
    lives (history ++ new) = lives history ++ lives new := by
  induction history with
  | nil => rfl
  | cons o history ih =>
    have hih : lives (history ++ new) = lives history ++ lives new := by
      apply ih
      rintro fd after ⟨listener, before, rfl⟩
      exact H fd after ⟨listener, o :: before, rfl⟩
    rw [List.cons_append]
    cases ho : o.accepted? with
    | none => rw [lives_cons_of_not_accepted ho, lives_cons_of_not_accepted ho, hih]
    | some fd =>
      have hs : Since (o :: history) fd history := .of_accepted ho
      rw [lives_cons_of_accepted ho, lives_cons_of_accepted ho, hih, H fd history hs]
      rfl

/-- What happens on one socket goes on with the last of the lives it has had. -/
theorem lives_extend (ha : ∀ o ∈ after, o.accepts fd = false) (hnew : Confined fd new)
    (before : List Occurrence) (listener : Fd) :
    ∃ A B, lives (before ++ .call (.accept listener (.ok fd)) :: after) = A ++ life fd after :: B ∧
      lives (before ++ .call (.accept listener (.ok fd)) :: after ++ new) =
        A ++ (life fd after ++ life fd new) :: B := by
  induction before with
  | nil =>
    have hquiet : lives (after ++ new) = lives after := by
      have hnone : lives new = [] := lives_eq_nil fun o ho fd' => hnew.accepts fd' o ho
      rw [lives_append, hnone, List.append_nil]
      intro fd' after' hs
      have hne : fd' ≠ fd := by
        rintro rfl
        obtain ⟨o, ho, h⟩ := hs.accepts
        rw [ha o ho] at h
        cases h
      exact life_append_off (hnew.life_eq_nil hne)
    refine ⟨[], lives after, rfl, ?_⟩
    rw [List.nil_append, List.cons_append, lives_cons_of_accepted rfl, hquiet, life_append ha]
    rfl
  | cons o before ih =>
    obtain ⟨A, B, h, h'⟩ := ih
    cases ho : o.accepted? with
    | none =>
      refine ⟨A, B, ?_, ?_⟩
      · rw [List.cons_append, lives_cons_of_not_accepted ho, h]
      · rw [List.cons_append, List.cons_append, lives_cons_of_not_accepted ho, h']
    | some fd' =>
      refine ⟨life fd' (before ++ .call (.accept listener (.ok fd)) :: after) :: A, B, ?_, ?_⟩
      · rw [List.cons_append, lives_cons_of_accepted ho, h]
        rfl
      · have hlife : life fd' (before ++ .call (.accept listener (.ok fd)) :: after ++ new) =
            life fd' (before ++ .call (.accept listener (.ok fd)) :: after) := by
          by_cases hfd : fd' = fd
          · subst hfd
            have hmem : Occurrence.call (.accept listener (.ok fd')) ∈
                before ++ .call (.accept listener (.ok fd')) :: after := by simp
            exact life_append_of_accepts ⟨_, hmem, by simp [Occurrence.accepts]⟩
          · exact life_append_off (hnew.life_eq_nil hfd)
        rw [List.cons_append, List.cons_append, lives_cons_of_accepted ho, h', hlife]
        rfl

theorem Confined.life_eq_filter (H : Confined fd new) :
    life fd new = new.filter fun o => decide (o.socket? = some fd) := by
  induction new with
  | nil => rfl
  | cons o new ih =>
    obtain ⟨ho, H⟩ := List.forall_mem_cons.1 H
    rcases ho with hs | ⟨hs, ha⟩
    · rw [life_cons hs, ih H, List.filter_cons_of_pos (by simp [hs])]
    · rw [List.filter_cons_of_neg (by simp [hs]), ← ih H]
      simp [life, ha fd, hs]

/-- What is on no socket is no operation, and closes none. -/
theorem Occurrence.of_socket?_eq_none (h : o.socket? = none) :
    o.operation? = none ∧ o.isClosing = false := by
  cases o with
  | turn => cases h
  | call c => cases c <;> first | exact ⟨rfl, rfl⟩ | cases h

theorem Confined.operations_life (H : Confined fd new) :
    operations (life fd new) = operations new := by
  rw [H.life_eq_filter, operations, operations, List.filterMap_filter]
  refine List.filterMap_congr fun o ho => ?_
  rcases H o ho with hs | ⟨hs, -⟩
  · simp [hs]
  · simp [hs, (Occurrence.of_socket?_eq_none hs).1]

theorem Confined.closings_life (H : Confined fd new) : closings (life fd new) = closings new := by
  rw [H.life_eq_filter, closings, closings, List.countP_filter]
  refine List.countP_congr fun o ho => ?_
  rcases H o ho with hs | ⟨hs, -⟩
  · simp [hs]
  · simp [hs, (Occurrence.of_socket?_eq_none hs).2]

end

/-! ## What is counted -/

/-- Whether a socket is registered, be it anew. -/
def Occurrence.isRegistration : Occurrence → Bool
  | call (.add _ _ _ (.ok ())) => true
  | call (.modify _ _ _ (.ok ())) => true
  | _ => false

/-- Whether a socket has become a connection. -/
def connected (L : List Occurrence) : Bool := L.any Occurrence.isRegistration

/-- Whether a connection is counted for a request. -/
def counted (L : List Occurrence) : Bool := Request.hasLine (received (operations L))

/-- Whether a socket has been a connection that is closed now. -/
def dismissed (L : List Occurrence) : Bool := connected L && decide (0 < closings L)

/-- The totals that what has happened comes to. -/
def Stats.ofHistory (history : List Occurrence) : Stats where
  connections := (lives history).countP connected
  requests := (lives history).countP counted
  received := ((operations history).map fun op => op.received.length).sum
  sent := ((operations history).map fun op => op.written.length).sum

theorem countP_middle {α : Type} (p : α → Bool) (as bs : List α) (a : α) :
    (as ++ a :: bs).countP p = (as ++ bs).countP p + (p a).toNat := by
  rw [List.countP_append, List.countP_append, List.countP_cons]
  cases p a <;> simp [Nat.add_assoc]

section
variable {page : String} {fd : Fd} {isIn : Bool} {setup : List Call} {L : List Occurrence}

theorem connected_append (L L' : List Occurrence) :
    connected (L ++ L') = (connected L || connected L') := List.any_append

namespace SetUp

theorem connected (H : SetUp fd isIn setup) : connected (beginning fd isIn setup) = isIn := by
  cases H with
  | registered hr | unregistered hr =>
    cases hr <;> simp [beginning, OnePage.connected, Occurrence.isRegistration]
  | blocking => rfl

theorem counted (H : SetUp fd isIn setup) : counted (beginning fd isIn setup) = false := by
  have hops : OnePage.operations (beginning fd isIn setup) = [] := by
    rw [beginning, operations_append, H.operations]
    cases isIn <;> rfl
  rw [OnePage.counted, hops]
  rfl

theorem dismissed (H : SetUp fd isIn setup) : dismissed (beginning fd isIn setup) = false := by
  rw [OnePage.dismissed, H.connected]
  cases isIn with
  | false => rfl
  | true => simp [beginning, H.quiet.closings]

end SetUp

theorem Admitted.connected (H : Admitted fd L) : connected L = true := by
  obtain ⟨setup, later, hs, -, rfl⟩ := H
  have hsetup := hs.connected
  rw [beginning, if_pos rfl, List.append_nil] at hsetup
  rw [connected_append, hsetup, Bool.true_or]

theorem Admitted.dismissed_append (H : Admitted fd L) (L' : List Occurrence) :
    dismissed (L ++ L') = decide (0 < closings L') := by
  rw [dismissed, connected_append, H.connected, closings_append, H.quiet.closings, Nat.zero_add,
    Bool.true_or, Bool.true_and]

/-- A request comes only on what has become a connection. -/
theorem Ended.connected_of_counted (H : Ended page fd L) (hc : counted L) : connected L = true := by
  rcases H.letGo with ⟨setup, hs, rfl⟩ | ⟨L', deleted, HL, rfl⟩
  · have hnone : counted (beginning fd false setup) = false := hs.counted
    exact absurd (hnone.symm.trans hc) Bool.false_ne_true
  · rw [connected_append, connected_append, HL.connected]
    rfl

end

/-! ## The totals of a turn -/

theorem Response.Refuses.stats {stats stats' : Stats} {op : Operation}
    (H : Response.Refuses stats op stats') : stats' = stats.addSent op.written.length := by
  cases H with
  | sent hn => rw [Operation.written, List.length_take, Nat.min_eq_left hn]
  | failed => rfl

theorem Response.Delivers.stats {content : Content} {r r' : Response} {stats stats' : Stats}
    {ops : List Operation} {result : Except SendError Progress}
    (H : Response.Delivers content r stats ops result r' stats') :
    stats' = stats.addSent (OnePage.written ops).length := by
  induction H with
  | @header r r' stats stats' n ops result hn hle H ih =>
    have hlength : ((Response.header.drop r.headerSent).take n).length = n := by
      rw [List.length_take, List.length_drop]
      omega
    rw [ih, written_cons, Operation.written, List.length_append, hlength, Stats.addSent_addSent]
  | body _ _ _ _ _ _ _ ih =>
    rw [ih, written_cons, Operation.written, List.length_append, Stats.addSent_addSent]
  | _ => rfl

/-- What is received and written in a turn is counted, whatever becomes of the connection. -/
theorem Connection.Handles.flow {c c' : Connection} {ready : Conditions} {files : Files}
    {page : String} {now : Nanoseconds} {stats stats' : Stats} {ops : List Operation}
    {verdict : Verdict} (H : c.Handles ready files page now stats ops verdict c' stats') :
    stats'.connections = stats.connections ∧
      stats'.received = stats.received + (received ops).length ∧
      stats'.sent = stats.sent + (written ops).length := by
  cases H with
  | cutOff _ _ _ hr Hr => simp [hr.received, Hr.received, Hr.stats, Stats.addSent]
  | unfinished _ _ _ _ _ _ Hr => simp [Hr.received, Hr.stats, Stats.addSent, Stats.addReceived]
  | malformed _ _ _ _ _ _ Hr =>
    simp [Hr.received, Hr.stats, Stats.addSent, Stats.addReceived, Stats.addRequest]
  | gone _ _ _ hr => simp [hr.received]
  | replied _ _ _ _ _ _ _ Hd =>
    simp [received_of_isTransfer Hd.isTransfer, Hd.stats, Stats.addSent, Stats.addReceived,
      Stats.addRequest]
  | resumed _ _ _ _ _ Hd => simp [received_of_isTransfer Hd.isTransfer, Hd.stats, Stats.addSent]
  | _ => simp [Stats.addReceived, Stats.addRequest, Operation.received, Operation.written]

/-- A request is counted in the turn in which its line is there. -/
theorem Underway.requests {page path : String} {c c' : Connection} {ops more : List Operation}
    {turns : List Turn} {ready : Conditions} {files : Files} {now : Nanoseconds}
    {stats stats' : Stats} {verdict : Verdict} (H : Underway path c ops turns)
    (Hh : c.Handles ready files page now stats more verdict c' stats') :
    stats'.requests + (Request.hasLine (received ops)).toNat =
      stats.requests + (Request.hasLine (received (ops ++ more))).toNat := by
  rw [received_append]
  cases H with
  | awaiting hs _ H =>
    rw [H.received]
    have hnone := H.noLine
    cases Hh with
    | broken => simp [Operation.received]
    | nothing | recvFailed => simp [Operation.received]
    | gone _ _ _ hr => simp [hr.received]
    | cutOff _ _ _ hr Hr => simp [hr.received, Hr.received, Hr.stats, Stats.addSent]
    | more _ _ _ _ hl => simp [hnone, hl, Stats.addReceived]
    | unfinished _ _ _ _ hl _ Hr =>
      simp [hnone, hl, Hr.stats, Stats.addSent, Hr.received, Stats.addReceived]
    | malformed _ _ _ _ hl _ Hr =>
      simp [hnone, hl, Hr.stats, Stats.addSent, Hr.received, Stats.addReceived, Stats.addRequest]
    | unopened _ _ _ _ hl => simp [hnone, hl, Stats.addReceived, Stats.addRequest]
    | replied _ _ _ _ hl _ _ Hd =>
      have hmore := received_of_isTransfer Hd.isTransfer
      simp [hnone, hl, Hd.stats, Stats.addSent, hmore, Stats.addReceived, Stats.addRequest]
    | closedEarly _ hs' | notWritable _ hs' | unanswerable _ hs' | resumed _ hs' =>
      cases hs.symm.trans hs'
    | spent _ hs' => exact absurd hs hs'
  | answered hs =>
    cases Hh with
    | broken | closedEarly | notWritable | unanswerable | spent => simp [Operation.received]
    | resumed _ _ _ _ _ Hd =>
      simp [received_of_isTransfer Hd.isTransfer, Hd.stats, Stats.addSent]
    | nothing _ hs' | recvFailed _ hs' | gone _ hs' | cutOff _ hs' | more _ hs' | unfinished _ hs'
      | malformed _ hs' | unopened _ hs' | replied _ hs' => cases hs.symm.trans hs'

/-! ## What a move makes of the lives -/

theorem length_lives (L : List Occurrence) : (lives L).length = acceptances L := by
  induction L with
  | nil => rfl
  | cons o L ih =>
    rw [acceptances_cons, ← ih]
    cases o with
    | turn => rfl
    | call c =>
      cases c with
      | accept listener result => cases result <;> rfl
      | _ => rfl

theorem closings_of_silent {L : List Occurrence} (h : ∀ o ∈ L, o.Silent) : closings L = 0 :=
  closings_eq_zero.2 fun o ho => (Occurrence.of_socket?_eq_none (h o ho).1).2

theorem SetUp.closings {fd : Fd} {isIn : Bool} {setup : List Call} (H : SetUp fd isIn setup) :
    closings (beginning fd isIn setup) = (!isIn).toNat := by
  rw [beginning, closings_append, H.quiet.closings]
  cases isIn <;> rfl

namespace Server

/-- What a move makes of the lives there are: it leaves them as they are, one is new, or the one of
a connection goes on. -/
inductive Succession (s : Server) (history new : List Occurrence) (s' : Server) : Prop
  | same (h : lives (history ++ new) = lives history)
    (hsize : s'.connections.size = s.connections.size) (hs : s'.stats = s.stats)
  | born {fd : Fd} {isIn : Bool} {setup : List Call} (H : SetUp fd isIn setup)
    (h : lives (history ++ new) = lives history ++ [beginning fd isIn setup])
    (hsize : s'.connections.size = s.connections.size + isIn.toNat)
    (hs : s'.stats = if isIn then s.stats.addConnection else s.stats)
  | grown {before after : List (List Occurrence)} {L more : List Occurrence} {page : String}
    {fd : Fd} {token : Token} {c : Connection} (H : Lived page fd token c L)
    (h : lives history = before ++ L :: after)
    (h' : lives (history ++ new) = before ++ (L ++ more) :: after)
    (hsize : s.connections.size = s'.connections.size + (decide (0 < closings more)).toNat)
    (hc : s'.stats.connections = s.stats.connections)
    (hr : s'.stats.requests + (counted L).toNat = s.stats.requests + (counted (L ++ more)).toNat)

namespace Succession
variable {s s' : Server} {k : Kernel} {history new before rest : List Occurrence}
variable {fd : Fd} {isIn : Bool} {setup : List Call} {token : Token} {c : Connection}

theorem of_accept
    (hbalance : acceptances (before ++ .call (.accept s.listener (.ok fd)) :: rest) +
      s.connections.size = s'.connections.size +
        closings (before ++ .call (.accept s.listener (.ok fd)) :: rest))
    (hbefore : ∀ o ∈ before, o.Silent) (hrest : Confined fd rest) (H : SetUp fd isIn setup)
    (hlife : life fd rest = beginning fd isIn setup)
    (hs : s'.stats = if isIn then s.stats.addConnection else s.stats) :
    Succession s history (before ++ .call (.accept s.listener (.ok fd)) :: rest) s' := by
  have hnew : lives (before ++ .call (.accept s.listener (.ok fd)) :: rest) = [life fd rest] := by
    have hnone : ∀ fd' after, ¬ Since before fd' after := by
      intro fd' after hsince
      obtain ⟨o, ho, h⟩ := hsince.accepts
      rw [(hbefore o ho).2 fd'] at h
      cases h
    rw [lives_append fun fd' after h => absurd h (hnone fd' after),
      lives_eq_nil fun o ho => (hbefore o ho).2, lives_cons_of_accepted rfl,
      lives_eq_nil fun o ho fd => hrest.accepts fd o ho]
    rfl
  refine .born H ?_ ?_ hs
  · rw [lives_append fun fd' after _ => life_append_off (life_accept hbefore hrest), hnew, hlife]
  · rw [← length_lives, hnew, closings_append, closings_of_silent hbefore, closings_cons,
      ← hrest.closings_life, hlife, H.closings] at hbalance
    cases isIn <;> simp [Occurrence.isClosing] at hbalance ⊢ <;> omega

theorem of_connection (R : Registered s k) (Hl : Lives s history) (Hn : Ledger s new s')
    (ht : s.connections.get? token = some c) (Hc : Confined c.socket new)
    (hc : s'.stats.connections = s.stats.connections)
    (hr : ∀ {path ops turns}, Underway path c ops turns →
      s'.stats.requests + (Request.hasLine (received ops)).toNat =
        s.stats.requests + (Request.hasLine (received (ops ++ operations new))).toNat) :
    Succession s history new s' := by
  obtain ⟨after, hsince, ha⟩ := Hl.since ht
  have HL := Hl.lived R ht ⟨after, hsince, ha, rfl⟩
  obtain ⟨listener, before, rfl⟩ := hsince
  obtain ⟨A, B, h, h'⟩ := lives_extend ha Hc before listener
  refine .grown HL h h' ?_ hc ?_
  · have hnone : lives new = [] := lives_eq_nil fun o ho fd => Hc.accepts fd o ho
    have hbalance := Hn.balance
    rw [← length_lives, hnone, List.length_nil, Nat.zero_add] at hbalance
    rw [hbalance, Hc.closings_life]
    rcases Nat.le_one_iff_eq_zero_or_eq_one.1 Hn.closings_le with h | h <;> simp [h]
  · rw [counted, counted, operations_append, Hc.operations_life]
    exact hr HL.underway

end Succession

theorem Aftermath.operations {s : Server} {token : Token} {fd : Fd} {c : Connection}
    {verdict : Verdict} {after : List Call} {table : Table Connection}
    (H : Aftermath s token fd c verdict after table) : operations (after.map .call) = [] := by
  cases H <;> rfl

theorem Move.succession {s s' : Server} {k k' : Kernel} {history new : List Occurrence}
    (R : Registered s k) (Hl : Lives s history) (Hm : Move s k new s' k') :
    Succession s history new s' := by
  have Hn := Hm.ledger R
  cases Hm.footprint with
  | elsewhere Hc _ _ hc hs =>
    refine .same ?_ (congrArg Table.size hc) hs
    rw [lives_append, lives_eq_nil fun o ho fd => Hc.accepts fd o ho, List.append_nil]
    intro fd after hsince
    exact life_append_off (Hc.life_eq_nil (Hl.ne_listener hsince))
  | adopt _ hbefore hr =>
    have hsetup := SetUp.registered hr
    exact .of_accept Hn.balance hbefore (.of_on hsetup.socket) hsetup
      ((life_on hsetup.socket).trans (List.append_nil _).symm) rfl
  | turnAway _ hbefore H hrest hlife _ _ _ hs =>
    exact .of_accept Hn.balance hbefore hrest H hlife hs
  | @turn _ _ _ _ _ ops _ _ _ _ _ ht Hh Ha Hc hlife =>
    refine .of_connection R Hl Hn ht Hc Hh.flow.1 fun hu => ?_
    have hops : operations new = ops := by
      rw [← Hc.operations_life, hlife]
      exact operations_taken [] _ ops Ha.operations
    rw [hops]
    exact hu.requests Hh
  | close ht Hc hlife =>
    refine .of_connection R Hl Hn ht Hc rfl fun _ => ?_
    have hops : operations new = [] := by
      rw [← Hc.operations_life, hlife]
      rfl
    rw [hops, List.append_nil]

/-! ## Totals -/

/-- What is received and written in a move is counted. -/
theorem Move.flow {s s' : Server} {k k' : Kernel} {new : List Occurrence} (H : Move s k new s' k') :
    s'.stats.received = s.stats.received + (received (operations new)).length ∧
      s'.stats.sent = s.stats.sent + (written (operations new)).length := by
  have Ho := H.outline
  generalize turns new = more at Ho
  generalize operations new = ops at Ho ⊢
  cases Ho with
  | aside _ _ hs | adopt _ _ hs =>
    rw [hs]
    exact ⟨rfl, rfl⟩
  | stay _ Hh | finish _ Hh => exact Hh.flow.2
  | close => exact ⟨rfl, rfl⟩

/-- What is counted, and how many connections are in the table, by what has happened. -/
structure Counts (s : Server) (history : List Occurrence) : Prop where
  connections : s.stats.connections = (lives history).countP connected
  requests : s.stats.requests = (lives history).countP counted
  received : s.stats.received = ((operations history).map fun op => op.received.length).sum
  sent : s.stats.sent = ((operations history).map fun op => op.written.length).sum
  size : (lives history).countP connected =
    s.connections.size + (lives history).countP dismissed

theorem Counts.move {s s' : Server} {k k' : Kernel} {history new : List Occurrence}
    (H : Counts s history) (R : Registered s k) (Hl : Lives s history) (Hm : Move s k new s' k') :
    Counts s' (history ++ new) := by
  have hreceived : s'.stats.received =
      ((operations (history ++ new)).map fun op => op.received.length).sum := by
    rw [Hm.flow.1, H.received, operations_append, List.map_append, List.sum_append,
      OnePage.received, List.length_flatMap]
  have hsent : s'.stats.sent =
      ((operations (history ++ new)).map fun op => op.written.length).sum := by
    rw [Hm.flow.2, H.sent, operations_append, List.map_append, List.sum_append, written,
      List.length_flatMap]
  have hconnections := H.connections
  have hrequests := H.requests
  have hsize := H.size
  cases Hm.succession R Hl with
  | same h hsize' hs =>
    refine ⟨?_, ?_, hreceived, hsent, ?_⟩
    · rw [h, hs, hconnections]
    · rw [h, hs, hrequests]
    · rw [h, hsize', hsize]
  | @born fd isIn setup Hset h hsize' hs =>
    have hp (p : List Occurrence → Bool) : (lives (history ++ new)).countP p =
        (lives history).countP p + (p (beginning fd isIn setup)).toNat := by
      rw [h, countP_middle, List.append_nil]
    refine ⟨?_, ?_, hreceived, hsent, ?_⟩
    · rw [hp, Hset.connected, ← hconnections, hs]
      cases isIn <;> rfl
    · rw [hp, Hset.counted, ← hrequests, hs]
      cases isIn <;> rfl
    · rw [hp, hp, Hset.connected, Hset.dismissed, hsize, hsize', Bool.toNat_false]
      omega
  | @grown before after L more _ _ _ _ HL h h' hsize' hc hr =>
    have hp (p : List Occurrence → Bool) : (lives (history ++ new)).countP p + (p L).toNat =
        (lives history).countP p + (p (L ++ more)).toNat := by
      rw [h, h', countP_middle, countP_middle]
      omega
    have hin := hp connected
    have hout := hp dismissed
    have HL := HL.admitted
    have hnone := HL.dismissed_append []
    rw [List.append_nil] at hnone
    rw [connected_append, HL.connected, Bool.true_or] at hin
    rw [hnone, HL.dismissed_append] at hout
    refine ⟨?_, ?_, hreceived, hsent, ?_⟩
    · omega
    · have hcounted := hp counted
      omega
    · have hnil : (decide (0 < closings [])).toNat = 0 := rfl
      omega

theorem Counts.stats {s : Server} {history : List Occurrence} (H : Counts s history) :
    s.stats = .ofHistory history := by
  obtain ⟨hconnections, hrequests, hreceived, hsent, -⟩ := H
  rw [Stats.ofHistory, ← hconnections, ← hrequests, ← hreceived, ← hsent]

end Server

theorem Reachable.counts {m : Moment} (H : Reachable m) : m.server.Counts m.history := by
  refine (H.invariant
    (P := fun s k h => (s.Registered k ∧ s.Lives h) ∧ s.Counts h) ?_ ?_).2
  · intro _ _ _ _ _ _ hl hw _ hc
    refine ⟨⟨Server.create_registered hl hw hc, Server.create_lives hc⟩, ?_⟩
    obtain ⟨queue, calls, rfl, -⟩ := Server.create_spec hc
    exact ⟨rfl, rfl, rfl, rfl, rfl⟩
  · intro _ _ _ _ _ _ H Hm
    exact ⟨⟨H.1.1.move Hm, H.1.2.move H.1.1 Hm⟩, H.2.move H.1.1 H.1.2 Hm⟩

/-- The total of requests is the number of lives in which a request has come. -/
theorem Reachable.countsRequests {m : Moment} (H : Reachable m) :
    m.server.stats.requests = (OnePage.lives m.history).countP counted := H.counts.requests

/-- Not all that connects requests something, and nothing else does. -/
theorem Reachable.requests_le {m : Moment} (H : Reachable m) :
    m.server.stats.requests ≤ m.server.stats.connections := by
  rw [H.counts.requests, H.counts.connections]
  refine List.countP_mono_left fun L hL hc => ?_
  obtain ⟨fd, hL⟩ := exists_lifetime hL
  rcases hL.ended_or_lived H with He | ⟨token, c, HL⟩
  · exact He.connected_of_counted hc
  · exact HL.admitted.connected

end OnePage
