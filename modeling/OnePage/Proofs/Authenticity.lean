import OnePage.Proofs.AccessLog

/-! # What the access log can be trusted for

Whatever the peers have sent, a line of the access log is the entry for the one connection that is
being closed, and cannot be read as any other (`access_log_authentic`). -/

namespace OnePage

namespace Log.Entry

/-- What an entry tells of the operations on a socket. The three parts of a request that was
understood stand between spaces. One that was refused is told in one piece, without the blanks at
its end. -/
def Tells (e : Entry) (ops : List Operation) : Prop :=
  match e.status with
  | .ok => Opened ops ∧ e.bytes = pageSent ops ∧ ∃ line, Request.parse (received ops) = .ok line ∧
    e.request.toList.count ' ' = 2 ∧
    Text.split (· == ' ') e.request.toList =
      [encode line.method, encode line.uri, encode line.version] ∧
    encode line.method ≠ [] ∧ encode line.uri ≠ [] ∧ encode line.version ≠ []
  | .badRequest => Refused ops ∧ e.bytes = 0 ∧ ∃ text,
    Text.Utf8.decode (received ops) = some text ∧
    e.request = String.ofList (encode (Text.Utf8.encode (Text.trimEnd text)))

/-- What holds of an entry that is written for a connection with the life `L`. Its line is all
printable, has two quotes and is cut at them into what the entry tells, which no other entry does.
The system's log takes it as it is. -/
structure Authentic (e : Entry) (L : List Occurrence) : Prop where
  sound : e.Sound
  printable : ∀ c ∈ e.line.toList, Printable c
  quotes : e.line.toList.count '"' = 2
  split : Text.split (· == '"') e.line.toList = e.parts
  only {e' : Entry} (H : e'.Sound) (h : e'.line = e.line) : e' = e
  taken (k : Kernel) : LogSink.syslog.put .info e.line k =
    ([.syslog Severity.info.priority LogSink.messageFormat e.line], k)
  peer : ∀ t ∈ turns L, t.before.peer.ip = e.ip
  date : ∃ seconds zone, e.date = String.ofList (stamp seconds zone)
  tells : e.Tells (operations L)

/-- The system's log never turns a line away. -/
theorem Sound.put_syslog {e : Entry} (H : e.Sound) (k : Kernel) :
    LogSink.syslog.put .info e.line k =
      ([.syslog Severity.info.priority LogSink.messageFormat e.line], k) := by
  have hempty : Severity.info.label ++ e.line = e.line := String.empty_append
  simp only [LogSink.put, hempty, H.no_nul]
  rfl

end Log.Entry

theorem Connection.Accounts.tells {c : Connection} {ops : List Operation} (H : c.Accounts ops)
    {seconds zone : Int} {e : Log.Entry} (he : Log.entryOf? c seconds zone = some e) :
    e.Tells ops := by
  obtain ⟨hs, hl, -, -, hbytes⟩ := Log.entryOf?_eq_some.1 he
  unfold Log.Entry.Tells
  cases H with
  | unanswered _ _ hs' => rw [hs'] at hs; cases hs
  | @opened line ho _ hp hs' hl' hb =>
    rw [← Option.some.inj (hs'.symm.trans hs), ← Option.some.inj (hl'.symm.trans hl)]
    obtain ⟨hsplit, hne⟩ := Log.split_logRequest hp
    have hcount := Text.length_split (· == ' ') (logRequest line).toList
    rw [hsplit] at hcount
    exact ⟨ho, hbytes.trans hb, line, hp, by simpa [List.count] using hcount.symm, hsplit, hne⟩
  | refused _ hr hs' hl' hb =>
    rw [← Option.some.inj (hs'.symm.trans hs)]
    obtain ⟨text, hdecode, hrequest⟩ := Option.map_eq_some_iff.1 (hl'.symm.trans hl)
    exact ⟨hr, hbytes.trans hb, text, hdecode, hrequest.symm⟩

theorem Connection.Recorded.authentic {c : Connection} {L : List Occurrence} (H : c.Recorded L)
    {seconds zone : Int} {e : Log.Entry} (he : Log.entryOf? c seconds zone = some e) :
    e.Authentic L := by
  have hs := H.accounts.sound he
  obtain ⟨-, -, hip, hdate, -⟩ := Log.entryOf?_eq_some.1 he
  exact ⟨hs, hs.printable, hs.count_quote, hs.split, fun H' h => H'.line_injective hs h,
    hs.put_syslog, fun t ht => by rw [H.peer t ht, hip], ⟨seconds, zone, hdate⟩,
    H.accounts.tells he⟩

/-- Whatever is told of a connection is the line of its entry. -/
theorem Told.authentic {log : LogSink} {c : Connection} {warned logged : List Call}
    (ht : Told log c warned logged) {L : List Occurrence} (hr : c.Recorded L) :
    ∀ call ∈ logged, ∃ e : Log.Entry, e.Authentic L ∧ log.Takes e call := by
  rcases ht.cases with ⟨seconds, zone, e, call, he, rfl, hw⟩ | ⟨-, rfl⟩
  · exact List.forall_mem_singleton.2 ⟨e, hr.authentic he, hw.takes (hr.accounts.sound he)⟩
  · exact List.forall_mem_nil _

theorem LogSink.Takes.shows {log : LogSink} {e : Log.Entry} {call : Call} (H : log.Takes e call) :
    call.Shows e.line := by
  cases H <;> exact String.empty_append

/-- A line that the log is given while a socket is closed, and that is the line of an authentic
entry for the connection on it. -/
def WrittenFor (log : LogSink) (before : List Occurrence) (call : Call)
    (rest : List Occurrence) : Prop :=
  ∃ fd earlier deleted warned rest' L, ∃ e : Log.Entry,
    before = earlier ++ (Call.delete fd deleted :: warned).map .call ∧
    rest = .call (.close fd) :: rest' ∧ Current earlier fd L ∧ log.Takes e call ∧ e.Authentic L

/-- Wherever a line of the access log is written, it is one that the log can be trusted for. For a
connection that is over, nothing but the line of an authentic entry has been given to the log. -/
theorem access_log_authentic {m : Moment} (H : Reachable m) :
    (∀ before call rest, m.history = before ++ .call call :: rest → call.IsEntry →
      WrittenFor m.server.log before call rest) ∧
    ∀ fd after, Since m.history fd after → ¬ m.server.Holds fd after →
      TurnedAway fd after ∨ Dismissed (fun L logged => ∀ call ∈ logged,
        ∃ e : Log.Entry, e.Authentic L ∧ m.server.log.Takes e call) fd after := by
  refine ⟨fun before call rest h he => ?_, fun fd after hs hn => ?_⟩
  · obtain ⟨fd, earlier, deleted, warned, rest', c, L, hbefore, hrest, hL, hr, ht⟩ := H.entry h he
    obtain ⟨e, ha, htakes⟩ := ht.authentic hr call List.mem_cons_self
    exact ⟨fd, earlier, deleted, warned, rest', L, e, hbefore, hrest, hL, htakes, ha⟩
  · exact (H.dismissed hs hn).imp_right fun Hd => Hd.imp fun _ _ _ ⟨_, _, hr, ht⟩ =>
      ht.authentic hr

/-- Once the page has been opened for a connection that is over, there is a line for it. -/
theorem Reachable.entry_of_opened {m : Moment} (H : Reachable m) {fd : Fd}
    {after : List Occurrence} (hs : Since m.history fd after) (hn : ¬ m.server.Holds fd after)
    (ho : Opened (operations (life fd after))) :
    ∃ before call rest, m.history = before ++ .call call :: rest ∧ call.IsEntry := by
  have Hd := ((H.dismissed hs hn).resolve_left fun h => h.not_opened ho).imp
    fun L logged hops (Hr : Reported m.server.log L logged) => Hr.once.opened (hops ▸ ho)
  obtain ⟨listener, earlier, hhistory⟩ := hs
  obtain @⟨before, rest, deleted, warned, _, -, -, ⟨e, call, rfl, htakes, -⟩, -, -, hafter⟩ := Hd
  refine ⟨earlier ++ .call (.accept listener (.ok fd)) :: (before ++
    (Call.delete fd deleted :: warned).map .call), call, .call (.close fd) :: rest, ?_, e, ?_⟩
  · rw [hhistory, hafter]
    simp
  · exact htakes.shows

/-- The line for a page that was sent. -/
theorem access_log_authentic_answered : ∃ before call rest,
    Moment.answered.history = before ++ .call call :: rest ∧ call.IsEntry ∧
      WrittenFor .stdout before call rest := by
  obtain ⟨before, call, rest, h, he⟩ := Reachable.answered.entry_of_opened answered_since
    answered_over answered_opened
  exact ⟨before, call, rest, h, he,
    (access_log_authentic Reachable.answered).1 before call rest h he⟩

end OnePage
