import OnePage.Proofs.Occurrences

/-! # Lifetimes of connections

A connection lives from the call that accepts its socket until the next call that accepts a socket
of that number. What happens on the socket in that time is one connection's doing: it is set up,
has its turns, and is closed (`Lived`, `Ended`), and nothing is done on it afterwards. A move has to
do with one socket (`Server.Footprint`), so it goes on with one life at most. All that is said of
connections over a whole run is said of these lives, by induction on them. -/

namespace OnePage
open EventQueue

/-! ## How a connection lives and ends -/

/-- The ways in which a connection in the table comes to be as it is, by what has happened on its
socket. -/
inductive Lived (page : String) (fd : Fd) (token : Token) :
    Connection → List Occurrence → Prop
  | registered {now : Nanoseconds} {peer : Net.Endpoint} {calls : List Call}
    (hr : Registration fd token .read (.ok ()) calls) :
    Lived page fd token (Connection.new now fd peer)
      ((Call.setNonblocking fd (.ok ()) :: calls).map .call)
  | waited {c c' : Connection} {L : List Occurrence} {ready : Conditions} {files : Files}
    {now : Nanoseconds} {stats stats' : Stats} {ops : List Operation}
    (H : Lived page fd token c L) (Hh : c.Handles ready files page now stats ops .wait c' stats') :
    Lived page fd token c'
      (L ++ .turn ⟨c, ready, files, now, .wait, c'⟩ :: (ops.map (Call.operation fd)).map .call)
  | rearmed {c c' : Connection} {L : List Occurrence} {ready : Conditions} {files : Files}
    {now : Nanoseconds} {stats stats' : Stats} {ops : List Operation}
    (H : Lived page fd token c L)
    (Hh : c.Handles ready files page now stats ops .rearm c' stats') :
    Lived page fd token c'
      (L ++ .turn ⟨c, ready, files, now, .rearm, c'⟩ :: (ops.map (Call.operation fd) ++
        [Call.modify fd token c'.interest.conditions (.ok ())]).map .call)

/-- The ways in which what has been accepted ends, by all that has happened on its socket. -/
inductive Ended (page : String) (fd : Fd) : List Occurrence → Prop
  | refused {e : Errno} : Ended page fd ([Call.setNonblocking fd (.error e), .close fd].map .call)
  | unregistered {token : Token} {e : Errno} {calls : List Call}
    (hr : Registration fd token .read (.error e) calls) :
    Ended page fd ((Call.setNonblocking fd (.ok ()) :: (calls ++ [.close fd])).map .call)
  | closed {token : Token} {c : Connection} {L : List Occurrence} {deleted : Outcome}
    (H : Lived page fd token c L) :
    Ended page fd (L ++ [Call.delete fd deleted, .close fd].map .call)
  | finished {token : Token} {c c' : Connection} {L : List Occurrence} {ready : Conditions}
    {files : Files} {now : Nanoseconds} {stats stats' : Stats} {ops : List Operation}
    {verdict : Verdict} {deleted : Outcome} (H : Lived page fd token c L)
    (Hh : c.Handles ready files page now stats ops verdict c' stats')
    (hv : verdict = .close ∨ ∃ cause, verdict = .fail cause) :
    Ended page fd (L ++ .turn ⟨c, ready, files, now, verdict, c'⟩ ::
      (ops.map (Call.operation fd) ++ [Call.delete fd deleted, .close fd]).map .call)
  | unarmed {token : Token} {c c' : Connection} {L : List Occurrence} {ready : Conditions}
    {files : Files} {now : Nanoseconds} {stats stats' : Stats} {ops : List Operation}
    {e : Errno} {deleted : Outcome} (H : Lived page fd token c L)
    (Hh : c.Handles ready files page now stats ops .rearm c' stats') :
    Ended page fd (L ++ .turn ⟨c, ready, files, now, .rearm, c'⟩ ::
      (ops.map (Call.operation fd) ++ [Call.modify fd token c'.interest.conditions (.error e),
        .delete fd deleted, .close fd]).map .call)

/-! ## Where a move takes place -/

/-- The calls that set up a socket which has been accepted, and whether it is registered then. -/
inductive SetUp (fd : Fd) : Bool → List Call → Prop
  | registered {token : Token} {calls : List Call}
    (hr : Registration fd token .read (.ok ()) calls) :
    SetUp fd true (.setNonblocking fd (.ok ()) :: calls)
  | blocking {e : Errno} : SetUp fd false [.setNonblocking fd (.error e)]
  | unregistered {token : Token} {e : Errno} {calls : List Call}
    (hr : Registration fd token .read (.error e) calls) :
    SetUp fd false (.setNonblocking fd (.ok ()) :: calls)

/-- What happens on a socket when it has been accepted: it becomes a connection, or it is closed. -/
def beginning (fd : Fd) (isIn : Bool) (setup : List Call) : List Occurrence :=
  setup.map .call ++ if isIn then [] else [.call (.close fd)]

namespace SetUp
variable {fd : Fd} {registered : Bool} {setup told : List Call}

theorem socket (H : SetUp fd registered setup) :
    ∀ o ∈ setup.map Occurrence.call, o.socket? = some fd := by
  cases H with
  | registered hr | unregistered hr => exact List.forall_mem_cons.2 ⟨rfl, hr.socket⟩
  | blocking => simp [Occurrence.socket?]

/-- A socket that is turned away is closed, and what is told of that is not part of its life. -/
theorem life_turnedAway (H : SetUp fd false setup) (ht : ∀ call ∈ told, call.isMessage) :
    life fd ((setup ++ told ++ [Call.close fd]).map .call) = beginning fd false setup := by
  rw [life_farewell H.socket ht, List.map_append]
  rfl

theorem ended {page : String} (H : SetUp fd false setup) :
    Ended page fd (beginning fd false setup) := by
  cases H with
  | blocking => exact .refused
  | unregistered hr =>
    have h := @Ended.unregistered page fd _ _ _ hr
    rwa [List.map_cons, List.map_append] at h

end SetUp

namespace Server

/-- What follows on a connection's socket when it has had its turn, and the table after that. -/
inductive Aftermath (s : Server) (token : Token) (fd : Fd) (c : Connection) :
    Verdict → List Call → Table Connection → Prop
  | waited : Aftermath s token fd c .wait [] (s.connections.insert token c)
  | rearmed : Aftermath s token fd c .rearm [.modify fd token c.interest.conditions (.ok ())]
    (s.connections.insert token c)
  | finished {verdict : Verdict} {deleted : Outcome}
    (hv : verdict = .close ∨ ∃ cause, verdict = .fail cause) :
    Aftermath s token fd c verdict [.delete fd deleted, .close fd] (s.connections.erase token)
  | unarmed {e : Errno} {deleted : Outcome} :
    Aftermath s token fd c .rearm
      [.modify fd token c.interest.conditions (.error e), .delete fd deleted, .close fd]
      (s.connections.erase token)

namespace Aftermath
variable {s : Server} {token : Token} {fd : Fd} {c c' : Connection} {verdict : Verdict}
variable {after : List Call} {table : Table Connection}

theorem get?_of_ne (H : Aftermath s token fd c verdict after table) {t : Token} (hne : t ≠ token) :
    table.get? t = s.connections.get? t := by
  cases H <;> simp [hne]

theorem eq_of_get? (H : Aftermath s token fd c verdict after table)
    (hd : table.get? token = some c') : c' = c := by
  cases H <;> simp_all

theorem lived {page : String} {ready : Conditions} {files : Files} {now : Nanoseconds}
    {stats stats' : Stats} {ops : List Operation} {L : List Occurrence}
    (H : Aftermath s token c.socket c' verdict after table)
    (Hh : c.Handles ready files page now stats ops verdict c' stats')
    (HL : Lived page c.socket token c L) :
    let L' := L ++ .turn ⟨c, ready, files, now, verdict, c'⟩ ::
      (ops.map (Call.operation c.socket) ++ after).map .call
    (∃ c', table.get? token = some c' ∧ Lived page c.socket token c' L') ∨
      table.get? token = none ∧ Ended page c.socket L' := by
  cases H with
  | waited =>
    rw [List.append_nil]
    exact .inl ⟨c', by simp, .waited HL Hh⟩
  | rearmed => exact .inl ⟨c', by simp, .rearmed HL Hh⟩
  | finished hv => exact .inr ⟨by simp, .finished HL Hh hv⟩
  | unarmed => exact .inr ⟨by simp, .unarmed HL Hh⟩

/-- A turn that ends a connection is followed by its closing. -/
theorem of_ending {seconds zone : Int} {last : Connection} {ending closing : List Call}
    (He : Ending s.log token c verdict ending last)
    (Hc : Closing s.log seconds zone last closing) :
    ∃ after, Aftermath s token c.socket c verdict after (s.connections.erase token) ∧
      Confined c.socket ((ending ++ closing).map .call) ∧
      life c.socket ((ending ++ closing).map .call) = after.map .call := by
  obtain ⟨hlast, hending, hlife⟩ := He.life
  obtain ⟨hclosing, deleted, hlife'⟩ := Hc.life
  rw [hlast] at hclosing hlife'
  rw [List.map_append, hending.life_append, hlife']
  rcases hlife with ⟨hv, h⟩ | ⟨rfl, e, h⟩
  · rw [h]
    exact ⟨_, .finished hv, hending.append hclosing, rfl⟩
  · rw [h]
    exact ⟨_, .unarmed, hending.append hclosing, rfl⟩

end Aftermath

/-- Where a move takes place: where connections are accepted, on a socket that has been accepted, or
on that of a connection. -/
inductive Footprint (s : Server) (k : Kernel) : List Occurrence → Server → Prop
  | elsewhere {new : List Occurrence} {s' : Server} (H : Confined s.listener new)
    (hp : s'.config = s.config) (hl : s'.listener = s.listener)
    (hc : s'.connections = s.connections) (hs : s'.stats = s.stats) : Footprint s k new s'
  | adopt {fd : Fd} {peer : Net.Endpoint} {now : Nanoseconds} {before : List Occurrence}
    {registering : List Call} (hfree : k.descriptors.get? fd = none)
    (hbefore : ∀ o ∈ before, o.Silent)
    (hr : Registration fd s.nextToken .read (.ok ()) registering) :
    Footprint s k
      (before ++ .call (.accept s.listener (.ok fd)) ::
        (Call.setNonblocking fd (.ok ()) :: registering).map .call)
      { s with
        nextToken := s.nextToken + 1
        stats := s.stats.addConnection
        connections := s.connections.insert s.nextToken (Connection.new now fd peer) }
  | turnAway {fd : Fd} {setup : List Call} {before rest : List Occurrence} {s' : Server}
    (hfree : k.descriptors.get? fd = none) (hbefore : ∀ o ∈ before, o.Silent)
    (H : SetUp fd false setup) (hrest : Confined fd rest)
    (hlife : life fd rest = beginning fd false setup) (hp : s'.config = s.config)
    (hl : s'.listener = s.listener) (hc : s'.connections = s.connections)
    (hs : s'.stats = s.stats) :
    Footprint s k (before ++ .call (.accept s.listener (.ok fd)) :: rest) s'
  | turn {token : Token} {c c' : Connection} {ready : Conditions} {now : Nanoseconds}
    {ops : List Operation} {verdict : Verdict} {stats : Stats} {after : List Call}
    {table : Table Connection} {new : List Occurrence} (ht : s.connections.get? token = some c)
    (Hh : c.Handles ready k.files s.config.indexPath now s.stats ops verdict c' stats)
    (Ha : Aftermath s token c.socket c' verdict after table) (H : Confined c.socket new)
    (hlife : life c.socket new = .turn ⟨c, ready, k.files, now, verdict, c'⟩ ::
      (ops.map (Call.operation c.socket) ++ after).map .call) :
    Footprint s k new { s with stats := stats, connections := table }
  | close {token : Token} {c : Connection} {deleted : Outcome} {new : List Occurrence}
    (ht : s.connections.get? token = some c) (H : Confined c.socket new)
    (hlife : life c.socket new = [Call.delete c.socket deleted, .close c.socket].map .call) :
    Footprint s k new { s with connections := s.connections.erase token }

theorem Move.footprint {s s' : Server} {k k' : Kernel} {new : List Occurrence}
    (H : Move s k new s' k') : Footprint s k new s' := by
  cases H with
  | tell Ht => exact .elsewhere (Ht.confined _) rfl rfl rfl rfl
  | wait hc =>
    subst hc
    refine .elsewhere (fun o ho => .inr ?_) rfl rfl rfl rfl
    rw [List.mem_singleton.1 ho]
    exact ⟨rfl, fun _ => rfl⟩
  | unaccepted hc =>
    subst hc
    exact .elsewhere (fun o ho => .inr (Occurrence.silent_of_unaccepted o ho)) rfl rfl rfl rfl
  | pause hc =>
    subst hc
    exact .elsewhere (.of_on (by simp [Occurrence.socket?])) rfl rfl rfl rfl
  | resume hr | unresumed hr => exact .elsewhere (.of_on hr.socket) rfl rfl rfl rfl
  | adopt hfree hr hc =>
    rw [hc, List.map_append, List.map_cons]
    exact .adopt hfree Occurrence.silent_of_interruption hr
  | refuse hfree ht hc =>
    rw [hc, List.map_append, List.map_cons]
    exact .turnAway hfree Occurrence.silent_of_interruption .blocking
      (.farewell SetUp.blocking.socket ht.isMessage) (SetUp.blocking.life_turnedAway ht.isMessage)
      rfl rfl rfl rfl
  | unregistered hfree hr ht hc =>
    have hsetup := SetUp.unregistered hr
    rw [hc, List.map_append, List.map_cons]
    exact .turnAway hfree Occurrence.silent_of_interruption hsetup
      (.farewell hsetup.socket ht.isMessage) (hsetup.life_turnedAway ht.isMessage) rfl rfl rfl rfl
  | stay ht Hh hc =>
    rename_i token c c' ready now ops stats calls He
    rw [← List.append_nil (ops.map _)] at hc
    refine .turn ht Hh .waited (hc ▸ .turn _ rfl ops (.of_on (List.forall_mem_nil _))) ?_
    rw [hc, life_turn ⟨c, ready, k.files, now, .wait, c'⟩ (Eq.refl c.socket) ops, List.map_append]
    rfl
  | rearm ht Hh hc =>
    rename_i token c c' ready now ops stats calls He
    have hmodify : ∀ o ∈ [Call.modify c.socket token c'.interest.conditions (.ok ())].map
        Occurrence.call, o.socket? = some c.socket := by simp [Occurrence.socket?]
    refine .turn ht Hh .rearmed (hc ▸ .turn _ rfl ops (.of_on hmodify)) ?_
    rw [hc, life_turn ⟨c, ready, k.files, now, .rearm, c'⟩ (Eq.refl c.socket) ops, life_on hmodify,
      List.map_append]
  | finish ht Hh He Hc hc =>
    rename_i token c c' last ready now ops verdict stats ending closing calls seconds Hk
    obtain ⟨after, Ha, hrest, hlife⟩ := Aftermath.of_ending He Hc
    rw [Hh.socket] at Ha hrest hlife
    rw [List.append_assoc] at hc
    refine .turn ht Hh Ha (hc ▸ .turn _ rfl ops hrest) ?_
    rw [hc, life_turn ⟨c, ready, k.files, now, verdict, c'⟩ (Eq.refl c.socket) ops, hlife,
      List.map_append]
  | close ht hl Hc =>
    rename_i token c last calls seconds He
    have hs : last.socket = c.socket := by rcases hl with rfl | rfl <;> rfl
    obtain ⟨hconf, deleted, hlife⟩ := Hc.life
    rw [hs] at hconf hlife
    exact .close ht hconf hlife

/-! ## All lives -/

/-- What has come of a descriptor since it was accepted. -/
inductive Fate (s : Server) : Fd → List Occurrence → Prop
  /-- One of that number has been accepted since. -/
  | replaced {fd : Fd} {after : List Occurrence} (ha : ∃ o ∈ after, o.accepts fd)
    (H : Ended s.config.indexPath fd (life fd after)) : Fate s fd after
  | gone {fd : Fd} {after : List Occurrence}
    (hn : ∀ token c, s.connections.get? token = some c → c.socket ≠ fd)
    (H : Ended s.config.indexPath fd (life fd after)) : Fate s fd after
  | living {token : Token} {c : Connection} {fd : Fd} {after : List Occurrence}
    (ht : s.connections.get? token = some c) (hs : c.socket = fd)
    (ha : ∀ o ∈ after, o.accepts fd = false)
    (H : Lived s.config.indexPath fd token c (life fd after)) : Fate s fd after

/-- What has no part in a life leaves its fate as it is, while the table says the same of its
descriptor. -/
theorem Fate.keep {s s' : Server} {fd : Fd} {after new : List Occurrence} (H : Fate s fd after)
    (hp : s'.config = s.config) (hoff : life fd new = [])
    (hacc : ∀ o ∈ new, o.accepts fd = false)
    (htable : ∀ t d, d.socket = fd →
      (s'.connections.get? t = some d ↔ s.connections.get? t = some d)) :
    Fate s' fd (after ++ new) := by
  have hlife : life fd (after ++ new) = life fd after := life_append_off hoff
  cases H with
  | replaced hr He =>
    obtain ⟨o, ho, hr⟩ := hr
    refine .replaced ⟨o, List.mem_append_left _ ho, hr⟩ ?_
    rw [hlife, hp]
    exact He
  | gone hn He =>
    refine .gone ?_ ?_
    · intro t d hd hs
      exact hn t d ((htable t d hs).1 hd) hs
    · rw [hlife, hp]
      exact He
  | @living t d _ _ hd hs hr He =>
    refine .living ((htable t d hs).2 hd) hs (List.forall_mem_append.2 ⟨hr, hacc⟩) ?_
    rw [hlife, hp]
    exact He

/-- All that has been accepted is in the table or has ended, and all in the table has been
accepted. -/
structure Lives (s : Server) (history : List Occurrence) : Prop where
  ne_listener {fd : Fd} {after : List Occurrence} (H : Since history fd after) : fd ≠ s.listener
  fate {fd : Fd} {after : List Occurrence} (H : Since history fd after) : Fate s fd after
  since {token : Token} {c : Connection} (ht : s.connections.get? token = some c) :
    ∃ after, Since history c.socket after ∧ ∀ o ∈ after, o.accepts c.socket = false

namespace Lives
variable {s : Server} {k : Kernel} {history new : List Occurrence} {token : Token}
variable {c c' : Connection}

/-- What happens elsewhere leaves all lives as they are. -/
theorem elsewhere {s' : Server} (H : Lives s history) (hp : s'.config = s.config)
    (hl : s'.listener = s.listener) (hc : s'.connections = s.connections)
    (hnew : Confined s.listener new) : Lives s' (history ++ new) where
  ne_listener := by
    intro fd after hs
    obtain ⟨a, ha, -⟩ := hs.of_append_quiet (hnew.accepts _)
    rw [hl]
    exact H.ne_listener ha
  fate := by
    intro fd after hs
    obtain ⟨a, ha, rfl⟩ := hs.of_append_quiet (hnew.accepts _)
    have hoff : life fd new = [] := hnew.life_eq_nil (H.ne_listener ha)
    exact (H.fate ha).keep hp hoff (hnew.accepts fd) fun t d _ => by rw [hc]
  since := by
    intro token c ht
    rw [hc] at ht
    obtain ⟨a, ha, hr⟩ := H.since ht
    exact ⟨_, ha.append new, List.forall_mem_append.2 ⟨hr, hnew.accepts _⟩⟩

/-- What happens on a connection's socket is part of its life alone. Either the connection stays in
the table with that socket, or its life is over. -/
theorem update {table : Table Connection} {stats : Stats} (H : Lives s history)
    (R : Registered s k) (ht : s.connections.get? token = some c)
    (htable : ∀ t, t ≠ token → table.get? t = s.connections.get? t)
    (hsocket : ∀ c', table.get? token = some c' → c'.socket = c.socket)
    (hnew : Confined c.socket new)
    (hlife : ∀ L, Lived s.config.indexPath c.socket token c L →
      (∃ c', table.get? token = some c' ∧
        Lived s.config.indexPath c.socket token c' (L ++ life c.socket new)) ∨
      table.get? token = none ∧ Ended s.config.indexPath c.socket (L ++ life c.socket new)) :
    Lives { s with stats := stats, connections := table } (history ++ new) := by
  have hbefore {t : Token} {d : Connection} (hd : table.get? t = some d) :
      ∃ d', s.connections.get? t = some d' ∧ d'.socket = d.socket := by
    by_cases he : t = token
    · subst he
      exact ⟨c, ht, (hsocket d hd).symm⟩
    · exact ⟨d, htable t he ▸ hd, rfl⟩
  exact {
    ne_listener := by
      intro fd after h
      obtain ⟨a, ha, -⟩ := h.of_append_quiet (hnew.accepts _)
      exact H.ne_listener ha
    fate := by
      intro fd after h
      obtain ⟨a, ha, rfl⟩ := h.of_append_quiet (hnew.accepts _)
      by_cases hfd : fd = c.socket
      · subst hfd
        cases H.fate ha with
        | replaced hr He =>
          obtain ⟨o, ho, hr⟩ := hr
          refine .replaced ⟨o, List.mem_append_left _ ho, hr⟩ ?_
          rw [life_append_of_accepts ⟨o, ho, hr⟩]
          exact He
        | gone hn => exact absurd rfl (hn _ _ ht)
        | @living t d _ _ hd hs hr He =>
          obtain rfl := R.token_unique hd ht hs
          rw [ht] at hd
          cases hd
          have hr' := List.forall_mem_append.2 ⟨hr, hnew.accepts c.socket⟩
          rcases hlife _ He with ⟨c', ht', He'⟩ | ⟨ht', He'⟩
          · refine .living ht' (hsocket c' ht') hr' ?_
            rw [life_append hr]
            exact He'
          · refine .gone ?_ ?_
            · intro t' d hd hsd
              obtain ⟨d', hd', hs'⟩ := hbefore hd
              rw [R.token_unique hd' ht (hs'.trans hsd), ht'] at hd
              cases hd
            · rw [life_append hr]
              exact He'
      · refine (H.fate ha).keep rfl (hnew.life_eq_nil hfd) (hnew.accepts fd) fun t d hs => ?_
        have hne : t ≠ token → (table.get? t = some d ↔ s.connections.get? t = some d) :=
          fun hne => by rw [htable t hne]
        constructor
        · intro hd
          refine (hne fun he => ?_).1 hd
          rw [he] at hd
          exact hfd (hs.symm.trans (hsocket d hd))
        · intro hd
          refine (hne fun he => ?_).2 hd
          rw [he, ht] at hd
          cases hd
          exact hfd hs.symm
    since := by
      intro t d hd
      obtain ⟨d', hd', hs⟩ := hbefore hd
      obtain ⟨a, ha, hr⟩ := H.since hd'
      rw [hs] at ha hr
      exact ⟨_, ha.append new, List.forall_mem_append.2 ⟨hr, hnew.accepts _⟩⟩ }

/-- A descriptor that is accepted was free, so what was accepted under its number before has
ended. -/
theorem accept {s' : Server} {fd : Fd} {before rest : List Occurrence} (H : Lives s history)
    (R : Registered s k) (hfree : k.descriptors.get? fd = none) (hp : s'.config = s.config)
    (hl : s'.listener = s.listener)
    (hbefore : ∀ o ∈ before, o.Silent)
    (hrest : Confined fd rest)
    (hkeep : ∀ t d, s.connections.get? t = some d → s'.connections.get? t = some d)
    (hborn : (∀ t d, s'.connections.get? t = some d → s.connections.get? t = some d) ∧
        Ended s.config.indexPath fd (life fd rest) ∨
      ∃ token c, s'.connections.get? token = some c ∧ c.socket = fd ∧
        (∀ t d, s'.connections.get? t = some d → s.connections.get? t = some d ∨ d = c) ∧
        Lived s.config.indexPath fd token c (life fd rest)) :
    Lives s' (history ++ (before ++ .call (.accept s.listener (.ok fd)) :: rest)) := by
  have hfresh {t : Token} {d : Connection} (hd : s.connections.get? t = some d) :
      d.socket ≠ fd := R.socket_ne_of_free hfree hd
  have hmem : ∃ o ∈ before ++ .call (.accept s.listener (.ok fd)) :: rest, o.accepts fd :=
    ⟨_, List.mem_append_right _ (List.mem_cons_self ..), by simp [Occurrence.accepts]⟩
  have hother {fd' : Fd} (hne : fd' ≠ fd) :
      ∀ o ∈ before ++ .call (.accept s.listener (.ok fd)) :: rest, o.accepts fd' = false :=
    not_accepts_of_ne hbefore hrest hne
  have hborn' {t : Token} {d : Connection} (hd : s'.connections.get? t = some d) :
      s.connections.get? t = some d ∨ d.socket = fd := by
    rcases hborn with ⟨hold, -⟩ | ⟨_, c, -, hs, hold, -⟩
    · exact .inl (hold t d hd)
    · exact (hold t d hd).imp_right fun he => by rw [he, hs]
  exact {
    ne_listener := by
      intro fd' after h
      rw [hl]
      rcases h.of_accept hbefore hrest with ⟨a, ha, -⟩ | ⟨rfl, -⟩
      · exact H.ne_listener ha
      · exact R.ne_of_free hfree
    fate := by
      intro fd' after h
      rcases h.of_accept hbefore hrest with ⟨a, ha, rfl⟩ | ⟨rfl, rfl⟩
      · have hoff : life fd' (before ++ .call (.accept s.listener (.ok fd)) :: rest) = [] :=
          life_accept hbefore hrest
        by_cases hfd : fd' = fd
        · subst hfd
          obtain ⟨o, ho, hr⟩ := hmem
          refine .replaced ⟨o, List.mem_append_right _ ho, hr⟩ ?_
          rw [life_append_off hoff, hp]
          cases H.fate ha with
          | replaced _ He | gone _ He => exact He
          | living hd hs => exact absurd hs (hfresh hd)
        · refine (H.fate ha).keep hp hoff (hother hfd) fun t d hs => ⟨fun hd => ?_, hkeep t d⟩
          exact (hborn' hd).resolve_right fun hs' => hfd (hs.symm.trans hs')
      · rw [← hp] at hborn
        rcases hborn with ⟨hold, He⟩ | ⟨token, c, ht, hs, -, HL⟩
        · exact .gone (fun t d hd => hfresh (hold t d hd)) He
        · exact .living ht hs (hrest.accepts _) HL
    since := by
      intro t d hd
      rcases hborn' hd with hd | hs
      · obtain ⟨a, ha, hr⟩ := H.since hd
        exact ⟨_, ha.append _, List.forall_mem_append.2 ⟨hr, hother (hfresh hd)⟩⟩
      · subst hs
        exact ⟨rest, ⟨s.listener, history ++ before, by simp⟩, hrest.accepts _⟩ }

/-! ## Every move keeps the lives -/

theorem move {s' : Server} {k' : Kernel} (H : Lives s history) (R : Registered s k)
    (Hm : Move s k new s' k') : Lives s' (history ++ new) := by
  cases Hm.footprint with
  | elsewhere Hn hp hl hc => exact H.elsewhere hp hl hc Hn
  | @adopt fd peer now _ registering hfree hbefore hr =>
    have hsetup := SetUp.registered hr
    refine H.accept R hfree rfl rfl hbefore (.of_on hsetup.socket) (fun t d hd => ?_)
      (.inr ⟨s.nextToken, Connection.new now fd peer, ?_, rfl, fun t d hd => ?_, ?_⟩)
    · have hne : t ≠ s.nextToken := Nat.ne_of_lt (R.token hd).2
      rw [Table.get?_insert, if_neg hne, hd]
    · rw [Table.get?_insert, if_pos rfl]
    · rw [Table.get?_insert] at hd
      split at hd
      · cases hd
        exact .inr rfl
      · exact .inl hd
    · rw [life_on hsetup.socket]
      exact .registered hr
  | turnAway hfree hbefore Hs hrest hlife hp hl hc =>
    refine H.accept R hfree hp hl hbefore hrest (fun t d hd => hc ▸ hd)
      (.inl ⟨fun t d hd => hc ▸ hd, ?_⟩)
    rw [hlife]
    exact Hs.ended
  | turn ht Hh Ha Hn hlife =>
    refine H.update R ht (fun t => Ha.get?_of_ne) (fun d hd => ?_) Hn fun L HL => ?_
    · rw [Ha.eq_of_get? hd]
      exact Hh.socket
    · rw [hlife]
      exact Ha.lived Hh HL
  | close ht Hn hlife =>
    refine H.update R ht (fun t hne => by simp [hne]) (fun d hd => ?_) Hn
      fun L HL => .inr ⟨by simp, ?_⟩
    · rw [Table.get?_erase, if_pos rfl] at hd
      cases hd
    · rw [hlife]
      exact .closed HL

/-- What has happened on the socket of a connection in the table is how it has lived. -/
theorem lived (H : Lives s history) (R : Registered s k)
    (ht : s.connections.get? token = some c) {L : List Occurrence}
    (hL : Current history c.socket L) : Lived s.config.indexPath c.socket token c L := by
  obtain ⟨after, hs, ha, rfl⟩ := hL
  cases H.fate hs with
  | replaced hr =>
    obtain ⟨o, ho, hr⟩ := hr
    rw [ha o ho] at hr
    cases hr
  | gone hn => exact absurd rfl (hn token c ht)
  | living ht' hs' _ Hl =>
    obtain rfl := R.token_unique ht' ht hs'
    rw [ht] at ht'
    cases ht'
    exact Hl

end Lives

theorem create_lives {config : Config} {listener : Fd} {log : LogSink} {k k' : Kernel}
    {s : Server} (hc : create config listener log k = (.ok s, k')) : Lives s [] := by
  have hnone {fd : Fd} {after : List Occurrence} : ¬ Since [] fd after := fun H => by
    obtain ⟨o, ho, -⟩ := H.accepts
    exact List.not_mem_nil ho
  obtain ⟨queue, calls, rfl, -⟩ := create_spec hc
  exact ⟨fun H => absurd H hnone, fun H => absurd H hnone, fun ht => by simp at ht⟩

end Server

theorem Reachable.lives {m : Moment} (H : Reachable m) : m.server.Lives m.history := by
  refine (H.invariant (P := fun s k h => s.Registered k ∧ s.Lives h) ?_ ?_).2
  · intro _ _ _ _ _ _ hl hw _ hc
    exact ⟨Server.create_registered hl hw hc, Server.create_lives hc⟩
  · intro _ _ _ _ _ _ H Hm
    exact ⟨H.1.move Hm, H.2.move H.1 Hm⟩

/-- A connection in the table has been accepted, and has lived since as its socket tells. -/
theorem Reachable.lived {m : Moment} (H : Reachable m) {token : Token} {c : Connection}
    (ht : m.server.connections.get? token = some c) :
    (∃ L, Current m.history c.socket L) ∧ ∀ L, Current m.history c.socket L →
      Lived m.server.config.indexPath c.socket token c L := by
  obtain ⟨after, hs, ha⟩ := H.lives.since ht
  exact ⟨⟨_, after, hs, ha, rfl⟩, fun _ => H.lives.lived H.registered ht⟩

end OnePage
