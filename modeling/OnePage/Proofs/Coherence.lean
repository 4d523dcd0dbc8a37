import OnePage.Proofs.Edges

/-! # Records of connections

The parts of a connection's record are changed one after the other, with ways out between them,
but whenever the server is at rest they fit together (`Connection.Coherent`): a connection in the
table waits for its request with nothing but the beginning of it, or has a reply under way. A turn
that leaves them otherwise is the connection's last. From turn to turn its stage only goes on
(`Stage.Leads`), and none has a turn once it is over. -/

namespace OnePage

namespace Stage

def isOver : Stage → Bool
  | accepted => false
  | requestReceived => false
  | responseSent => true
  | failed => true

/-- How the stage of a connection can change at an event. -/
inductive Leads : Stage → Stage → Prop
  | receive : Leads accepted accepted
  | begin : Leads accepted requestReceived
  | answer : Leads accepted responseSent
  | giveUp : Leads accepted failed
  | send : Leads requestReceived requestReceived
  | finish : Leads requestReceived responseSent
  | fail : Leads requestReceived failed

theorem Leads.not_isOver {stage stage' : Stage} (H : Leads stage stage') :
    stage.isOver = false := by
  cases H <;> rfl

end Stage

/-- How the parts of a record fit together between two events. -/
inductive Connection.Coherent (c : Connection) : Prop
  | waiting (hs : c.stage = .accepted) (hi : c.interest = .read) (hr : c.response = none)
    (hstatus : c.status = none) (hline : c.requestLine = none)
    (hlt : c.request.length < Connection.requestSize) (hl : Request.hasLine c.request = false)
  | replying {r : Response} {line : String} (hs : c.stage = .requestReceived)
    (hi : c.interest = .write) (hr : c.response = some r) (hc : ¬ r.IsComplete)
    (hstatus : c.status = some .ok) (hline : c.requestLine = some line) (hb : c.request = [])

/-- A turn of a connection whose record is coherent, and what it can make of it. A reply is sent on
only where there is one, and with all of it sent nothing has failed. -/
structure Turn.Orderly (t : Turn) : Prop where
  coherent : t.before.Coherent
  leads : t.before.stage.Leads t.after.stage
  received (h : t.after.stage = .accepted) : t.before.request <+: t.after.request
  failing {cause : ConnectionError} (h : t.verdict = .fail cause) :
    t.before.stage.Leads t.after.fail.stage ∧ cause ≠ .noResponse
  sent (h : t.after.stage = .responseSent) : t.verdict = .close
  rest (h : t.verdict = .wait ∨ t.verdict = .rearm) : t.after.Coherent

/-- Turns in a row, each of which finds the record as the one before it left it. -/
inductive Course (c : Connection) : List Turn → Connection → Prop
  | nil : Course c [] c
  | snoc {turns : List Turn} {t : Turn} (H : Course c turns t.before) (ht : t.Orderly) :
    Course c (turns ++ [t]) t.after

/-- The room for receiving is what the request may still take up, and never none. -/
def Operation.HasRoom : Operation → Prop
  | recv room _ => 1 ≤ room ∧ room ≤ Connection.requestSize
  | _ => True

theorem Operation.hasRoom_of_isTransfer {op : Operation} (h : op.isTransfer) : op.HasRoom := by
  cases op with
  | recv => cases h
  | _ => trivial

theorem Connection.room_pos {received : List UInt8} (h : received.length < requestSize) :
    1 ≤ room received ∧ room received ≤ requestSize := by
  rw [room]
  omega

namespace Stage.Leads
variable {stage : Stage}

theorem same (h : stage.isOver = false) : stage.Leads stage := by
  cases stage with
  | accepted => exact .receive
  | requestReceived => exact .send
  | responseSent | failed => cases h

theorem failed (h : stage.isOver = false) : stage.Leads .failed := by
  cases stage with
  | accepted => exact .giveUp
  | requestReceived => exact .fail
  | responseSent | failed => cases h

/-- Wherever a reply can be under way afterwards, it can also be out. -/
theorem reply (h : stage.Leads .requestReceived) : stage.Leads .responseSent := by
  cases h with
  | begin => exact .answer
  | send => exact .finish

end Stage.Leads

/-- Sending a response on never fails for the lack of one. -/
theorem Connection.continued_cause {c c' : Connection} {r : Response}
    {result : Except SendError Progress} {cause : ConnectionError}
    (hc : c.continued r result = (.fail cause, c')) : cause ≠ .noResponse := by
  unfold continued at hc
  split at hc
  · cases hc
  · split at hc <;> cases hc
  · cases hc
    exact ConnectionError.noConfusion

namespace Connection.Coherent
section
variable {c c' : Connection} {ready : Conditions} {files : Files} {page : String}
variable {now : Nanoseconds} {stats stats' : Stats} {ops : List Operation} {verdict : Verdict}

theorem not_isOver (H : c.Coherent) : c.stage.isOver = false := by
  cases H with
  | waiting hs | replying hs => rw [hs]; rfl

protected theorem new (now : Nanoseconds) (fd : Fd) (peer : Net.Endpoint) :
    (Connection.new now fd peer).Coherent :=
  have hsize : 0 < requestSize := by decide
  .waiting rfl rfl rfl rfl rfl hsize rfl

theorem length_lt (H : c.Coherent) (hs : c.stage = .accepted) : c.request.length < requestSize := by
  cases H with
  | waiting _ _ _ _ _ hlt => exact hlt
  | replying hs' => rw [hs] at hs'; cases hs'

/-- What is to wait after its reply was sent on waits for room. -/
theorem of_continued {d : Connection} {content : Content} {r r' : Response} {line : String}
    {result : Except SendError Progress}
    (H : Response.Delivers content r stats ops result r' stats') (hs : d.stage = .requestReceived)
    (hstatus : d.status = some .ok) (hline : d.requestLine = some line) (hb : d.request = [])
    (hc : d.continued r' result = (verdict, c')) (hv : verdict = .wait ∨ verdict = .rearm) :
    c'.Coherent := by
  have hunsent (h : result = .ok .blocked) : ¬ r'.IsComplete := by
    intro hr
    have := H.complete_iff.2 hr
    rw [h] at this
    cases this
  rcases hv with rfl | rfl
  · obtain ⟨hresult, hi, rfl⟩ := continued_wait hc
    exact .replying hs hi rfl (hunsent hresult) hstatus hline hb
  · obtain ⟨hresult, -, rfl⟩ := continued_rearm hc
    exact .replying hs rfl rfl (hunsent hresult) hstatus hline hb

/-- What a turn comes to in which a reply is begun or goes on. -/
theorem reply (H : c.Coherent) {d : Connection} {content : Content} {r r' : Response}
    {line : String} {result : Except SendError Progress}
    (Hd : Response.Delivers content r stats ops result r' stats') (hs : d.stage = .requestReceived)
    (hstatus : d.status = some .ok) (hline : d.requestLine = some line) (hb : d.request = [])
    (hc : d.continued r' result = (verdict, c')) (hl : c.stage.Leads .requestReceived) :
    Turn.Orderly ⟨c, ready, files, now, verdict, c'⟩ := by
  have hrest (hv : verdict = .wait ∨ verdict = .rearm) : c'.Coherent :=
    of_continued Hd hs hstatus hline hb hc hv
  have hfailing {cause : ConnectionError} (h : verdict = .fail cause) :
      c.stage.Leads c'.fail.stage ∧ cause ≠ .noResponse :=
    ⟨.failed H.not_isOver, continued_cause (h ▸ hc)⟩
  rcases continued_stage hc with ⟨-, rfl, hsent⟩ | ⟨-, hsame⟩
  · exact ⟨H, hsent ▸ hl.reply, fun h => (by rw [hsent] at h; cases h), hfailing, fun _ => rfl,
      hrest⟩
  · rw [hs] at hsame
    exact ⟨H, hsame ▸ hl, fun h => (by rw [hsame] at h; cases h), hfailing,
      fun h => (by rw [hsame] at h; cases h), hrest⟩

/-- A turn that leaves the record as it is, to wait on or to be given up. -/
theorem same (H : c.Coherent) (hv : verdict ≠ .fail .noResponse) :
    Turn.Orderly ⟨c, ready, files, now, verdict, c⟩ where
  coherent := H
  leads := .same H.not_isOver
  received _ := List.prefix_refl _
  failing h := ⟨.failed H.not_isOver, fun hcause => hv (hcause ▸ h)⟩
  sent h := by
    have hover := H.not_isOver
    rw [h] at hover
    cases hover
  rest _ := H

/-- A turn after which the connection is closed without a reply, or with the refusal. -/
theorem giveUp (H : c.Coherent) (hl : c.stage.Leads c'.stage) (hs : c'.stage ≠ .accepted)
    (hs' : c'.stage ≠ .responseSent)
    (hv : verdict = .close ∨ ∃ cause, verdict = .fail (.opening cause)) :
    Turn.Orderly ⟨c, ready, files, now, verdict, c'⟩ where
  coherent := H
  leads := hl
  received h := absurd h hs
  failing {cause} h := by
    refine ⟨.failed H.not_isOver, ?_⟩
    rcases hv with rfl | ⟨cause, rfl⟩ <;> cases h
    exact ConnectionError.noConfusion
  sent h := absurd h hs'
  rest h := by
    rcases hv with rfl | ⟨cause, rfl⟩ <;> rcases h with h | h <;> cases h

/-- Every way out of an event leaves the record coherent, or leaves the connection to be closed. -/
theorem turn (H : c.Coherent)
    (Hh : c.Handles ready files page now stats ops verdict c' stats') :
    Turn.Orderly ⟨c, ready, files, now, verdict, c'⟩ ∧ ∀ op ∈ ops, op.HasRoom := by
  have hroom (hs : c.stage = .accepted) :
      1 ≤ room c.request ∧ room c.request ≤ requestSize := room_pos (H.length_lt hs)
  have hfailed (hs : c.stage = .accepted) : c.stage.Leads .failed := hs ▸ .giveUp
  cases Hh with
  | broken => exact ⟨H.same (by simp), by simp [Operation.HasRoom]⟩
  | nothing _ hs => exact ⟨H.same (by simp), by simpa [Operation.HasRoom] using hroom hs⟩
  | recvFailed _ hs => exact ⟨H.same (by simp), by simpa [Operation.HasRoom] using hroom hs⟩
  | gone _ hs =>
    refine ⟨H.giveUp (hfailed hs) Stage.noConfusion Stage.noConfusion (.inl rfl), ?_⟩
    simpa [Operation.HasRoom] using hroom hs
  | cutOff _ hs _ _ Hr | unfinished _ hs _ _ _ _ Hr | malformed _ hs _ _ _ _ Hr =>
    obtain ⟨reply, rfl, -⟩ := Hr.eq_send
    refine ⟨H.giveUp (hfailed hs) Stage.noConfusion Stage.noConfusion (.inl rfl), ?_⟩
    simpa [Operation.HasRoom] using hroom hs
  | @more data _ hs _ _ hl hlt =>
    refine ⟨⟨H, .same H.not_isOver, fun _ => List.prefix_append _ _, fun h => (by cases h),
      fun h => absurd (hs.symm.trans h) Stage.noConfusion, fun _ => ?_⟩, ?_⟩
    · cases H with
      | waiting _ hi hr hstatus hline => exact .waiting hs hi hr hstatus hline hlt hl
      | replying hs' => rw [hs] at hs'; cases hs'
    · simpa [Operation.HasRoom] using hroom hs
  | unopened _ hs =>
    refine ⟨H.giveUp (hs ▸ .begin) Stage.noConfusion Stage.noConfusion (.inr ⟨_, rfl⟩), ?_⟩
    simpa [Operation.HasRoom] using hroom hs
  | @replied data line r r' ops' _ _ _ _ _ hs _ _ _ _ _ Hd hc =>
    refine ⟨H.reply Hd rfl rfl rfl rfl hc (hs ▸ .begin), ?_⟩
    have hops : ∀ op ∈ ops', op.HasRoom := fun op ho =>
      Operation.hasRoom_of_isTransfer (Hd.isTransfer op ho)
    exact List.forall_mem_cons.2 ⟨hroom hs, List.forall_mem_cons.2 ⟨trivial, hops⟩⟩
  | closedEarly | notWritable => exact ⟨H.same (by simp), by simp⟩
  | unanswerable _ hs hr =>
    -- there always is a response where a request has been received
    cases H with
    | waiting hs' => rw [hs] at hs'; cases hs'
    | replying _ _ hr' => rw [hr] at hr'; cases hr'
  | @resumed r r' _ _ _ _ _ _ hs _ _ _ Hd hc =>
    have hops : ∀ op ∈ ops, op.HasRoom := fun op ho =>
      Operation.hasRoom_of_isTransfer (Hd.isTransfer op ho)
    cases H with
    | waiting hs' => rw [hs] at hs'; cases hs'
    | replying hs' hi hr hunsent hstatus hline hb =>
      have H : c.Coherent := .replying hs' hi hr hunsent hstatus hline hb
      refine ⟨?_, hops⟩
      exact H.reply (d := { c with lastActive := now }) Hd hs hstatus hline hb hc (hs ▸ .send)
  | spent _ hs hs' =>
    cases H with
    | waiting h => exact absurd h hs
    | replying h => exact absurd h hs'

end

end Connection.Coherent

/-! ## What a move is to the connections -/

section
variable {sink : LogSink} {messages : List (Severity × String)} {calls : List Call}

theorem operations_of_isMessage (h : ∀ call ∈ calls, call.isMessage) :
    operations (calls.map .call) = [] := by
  refine List.filterMap_eq_nil_iff.2 fun o ho => ?_
  obtain ⟨call, hcall, rfl⟩ := List.mem_map.1 ho
  have hm := h call hcall
  cases call with
  | operation => cases hm
  | _ => rfl

theorem LogSink.Tells.operations (H : sink.Tells messages calls) :
    operations (calls.map .call) = [] := operations_of_isMessage H.isMessage

theorem Sys.operations_interruptions (listener : Fd) (n : Nat) :
    operations ((interruptions listener n).map .call) = [] := by
  induction n with
  | zero => rfl
  | succ n ih => exact ih

theorem Server.Closing.operations {log : LogSink} {seconds zone : Int} {c : Connection}
    (H : Server.Closing log seconds zone c calls) : operations (calls.map .call) = [] := by
  obtain @⟨deleted, told, ht⟩ := H
  rw [List.map_cons, List.map_append]
  exact (operations_append ..).trans (by rw [ht.operations]; rfl)

theorem Server.Ending.operations {log : LogSink} {token : Token} {c last : Connection}
    {verdict : Verdict} (H : Server.Ending log token c verdict calls last) :
    operations (calls.map .call) = [] := by
  cases H with
  | close => rfl
  | fail ht => exact ht.operations
  | rearm ht => exact ht.operations

end

namespace Server

/-- What a move comes to for the connections, by its turns and operations. -/
inductive Outline (s : Server) (files : Files) : List Turn → List Operation → Server → Prop
  | aside {s' : Server} (hp : s'.config = s.config) (ht : s'.connections = s.connections)
    (hs : s'.stats = s.stats) : Outline s files [] [] s'
  | adopt {s' : Server} {now : Nanoseconds} {fd : Fd} {peer : Net.Endpoint}
    (hp : s'.config = s.config)
    (ht : s'.connections = s.connections.insert s.nextToken (Connection.new now fd peer))
    (hs : s'.stats = s.stats.addConnection) : Outline s files [] [] s'
  | stay {token : Token} {c c' : Connection} {ready : Conditions} {now : Nanoseconds}
    {ops : List Operation} {verdict : Verdict} {stats : Stats}
    (ht : s.connections.get? token = some c)
    (Hh : c.Handles ready files s.config.indexPath now s.stats ops verdict c' stats)
    (hv : verdict = .wait ∨ verdict = .rearm) :
    Outline s files [⟨c, ready, files, now, verdict, c'⟩] ops
      { s with stats := stats, connections := s.connections.insert token c' }
  | finish {token : Token} {c c' : Connection} {ready : Conditions} {now : Nanoseconds}
    {ops : List Operation} {verdict : Verdict} {stats : Stats}
    (ht : s.connections.get? token = some c)
    (Hh : c.Handles ready files s.config.indexPath now s.stats ops verdict c' stats) :
    Outline s files [⟨c, ready, files, now, verdict, c'⟩] ops
      { s with stats := stats, connections := s.connections.erase token }
  | close {token : Token} {c : Connection} (ht : s.connections.get? token = some c) :
    Outline s files [] [] { s with connections := s.connections.erase token }

theorem Move.outline {s s' : Server} {k k' : Kernel} {new : List Occurrence}
    (H : Move s k new s' k') : Outline s k.files (turns new) (operations new) s' := by
  cases H with
  | tell ht =>
    rw [turns_calls, ht.operations]
    exact .aside rfl rfl rfl
  | wait hc | pause hc =>
    rw [turns_calls, hc]
    exact .aside rfl rfl rfl
  | resume hr | unresumed hr =>
    rw [turns_calls, hr.operations]
    exact .aside rfl rfl rfl
  | unaccepted hc =>
    rw [turns_calls, hc, List.map_append, operations_append, Sys.operations_interruptions]
    exact .aside rfl rfl rfl
  | @adopt _ n fd peer _ now registering calls _ hr hc =>
    have hops : operations (calls.map .call) = [] := by
      rw [hc, List.map_append, operations_append, Sys.operations_interruptions]
      exact hr.operations
    rw [turns_calls, hops]
    exact @Outline.adopt _ _ _ now fd peer rfl rfl rfl
  | @refuse _ n fd _ _ told calls _ ht hc =>
    have hops : operations (calls.map .call) = [] := by
      rw [hc, List.map_append, operations_append, Sys.operations_interruptions, List.nil_append,
        List.map_cons, List.map_cons, List.map_append]
      exact (operations_append ..).trans (by rw [ht.operations]; rfl)
    rw [turns_calls, hops]
    exact .aside rfl rfl rfl
  | @unregistered _ n fd _ _ registering told calls _ hr ht hc =>
    have hops : operations (calls.map .call) = [] := by
      rw [hc, List.map_append, operations_append, Sys.operations_interruptions, List.nil_append,
        List.map_cons, List.map_cons, List.map_append, List.map_append, List.append_assoc]
      refine (operations_append ..).trans ?_
      rw [hr.operations, operations_append, ht.operations]
      rfl
    rw [turns_calls, hops]
    exact .aside rfl rfl rfl
  | stay ht Hh hc =>
    rw [turns_turn, turns_calls, hc, operations_turn, operations_operations]
    exact .stay ht Hh (.inl rfl)
  | rearm ht Hh hc =>
    rw [turns_turn, turns_calls, operations_turn, hc, List.map_append, operations_append,
      operations_operations]
    exact List.append_nil _ ▸ .stay ht Hh (.inr rfl)
  | finish ht Hh He Hc hc =>
    rw [turns_turn, turns_calls, operations_turn, hc, List.map_append, List.map_append,
      operations_append, operations_append, operations_operations, He.operations, Hc.operations,
      List.append_nil, List.append_nil]
    exact .finish ht Hh
  | close ht _ Hc =>
    rw [turns_calls, Hc.operations]
    exact .close ht

/-- Records in the table are coherent, and all that has been done about them was in order. -/
structure Coherent (s : Server) (history : List Occurrence) : Prop where
  table {token : Token} {c : Connection} (h : s.connections.get? token = some c) : c.Coherent
  orderly : ∀ t ∈ turns history, t.Orderly
  hasRoom : ∀ op ∈ operations history, op.HasRoom

theorem Coherent.move {s s' : Server} {k k' : Kernel} {history new : List Occurrence}
    (H : Coherent s history) (Hm : Move s k new s' k') : Coherent s' (history ++ new) := by
  have Ho := Hm.outline
  generalize hturns : turns new = more at Ho
  generalize hops : operations new = ops at Ho
  have hleft {token' token : Token} {c : Connection}
      (h : (s.connections.erase token').get? token = some c) : c.Coherent := by
    rw [Table.get?_erase] at h
    split at h
    · cases h
    · exact H.table h
  have hput {token' token : Token} {c c' : Connection} (hc : c'.Coherent)
      (h : (s.connections.insert token' c').get? token = some c) : c.Coherent := by
    rw [Table.get?_insert] at h
    split at h
    · cases h
      exact hc
    · exact H.table h
  cases Ho with
  | aside _ ht =>
    refine ⟨fun h => H.table (ht ▸ h), ?_, ?_⟩
    · rw [turns_append, hturns, List.append_nil]
      exact H.orderly
    · rw [operations_append, hops, List.append_nil]
      exact H.hasRoom
  | adopt _ ht =>
    refine ⟨fun h => ?_, ?_, ?_⟩
    · rw [ht] at h
      exact hput (.new ..) h
    · rw [turns_append, hturns, List.append_nil]
      exact H.orderly
    · rw [operations_append, hops, List.append_nil]
      exact H.hasRoom
  | stay ht Hh hv =>
    obtain ⟨hturn, hroom⟩ := (H.table ht).turn Hh
    refine ⟨hput (hturn.rest hv), ?_, ?_⟩
    · rw [turns_append, hturns]
      exact List.forall_mem_append.2 ⟨H.orderly, List.forall_mem_singleton.2 hturn⟩
    · rw [operations_append, hops]
      exact List.forall_mem_append.2 ⟨H.hasRoom, hroom⟩
  | finish ht Hh =>
    obtain ⟨hturn, hroom⟩ := (H.table ht).turn Hh
    refine ⟨hleft, ?_, ?_⟩
    · rw [turns_append, hturns]
      exact List.forall_mem_append.2 ⟨H.orderly, List.forall_mem_singleton.2 hturn⟩
    · rw [operations_append, hops]
      exact List.forall_mem_append.2 ⟨H.hasRoom, hroom⟩
  | close =>
    refine ⟨hleft, ?_, ?_⟩
    · rw [turns_append, hturns, List.append_nil]
      exact H.orderly
    · rw [operations_append, hops, List.append_nil]
      exact H.hasRoom

end Server

theorem Reachable.coherent {m : Moment} (H : Reachable m) : m.server.Coherent m.history := by
  refine H.invariant (P := fun s _ h => s.Coherent h) ?_ Server.Coherent.move
  intro _ _ _ _ _ _ _ _ _ hc
  obtain ⟨queue, calls, rfl, -⟩ := Server.create_spec hc
  exact ⟨fun h => by simp at h, by simp [turns], by simp [operations]⟩

/-! ## From turn to turn -/

section
variable {page : String} {fd : Fd} {token : Token} {c : Connection} {L : List Occurrence}

/-- A connection in the table is as its turns have left it. -/
theorem Lived.course (H : Lived page fd token c L) :
    c.Coherent ∧ ∃ now peer, Course (Connection.new now fd peer) (turns L) c := by
  induction H with
  | @registered now peer calls hr =>
    have hturns : turns ((Call.setNonblocking fd (.ok ()) :: calls).map .call) = [] := turns_calls _
    refine ⟨.new .., now, peer, ?_⟩
    rw [hturns]
    exact .nil
  | @waited c c' L ready files now stats stats' ops H Hh ih =>
    obtain ⟨hc, born, peer, Hcourse⟩ := ih
    have hturn := (hc.turn Hh).1
    refine ⟨hturn.rest (.inl rfl), born, peer, ?_⟩
    rw [turns_taken]
    exact .snoc (t := ⟨c, ready, files, now, .wait, c'⟩) Hcourse hturn
  | @rearmed c c' L ready files now stats stats' ops H Hh ih =>
    obtain ⟨hc, born, peer, Hcourse⟩ := ih
    have hturn := (hc.turn Hh).1
    refine ⟨hturn.rest (.inr rfl), born, peer, ?_⟩
    rw [turns_taken]
    exact .snoc (t := ⟨c, ready, files, now, .rearm, c'⟩) Hcourse hturn

theorem Ended.course (H : Ended page fd L) :
    ∃ now peer c, Course (Connection.new now fd peer) (turns L) c := by
  cases H with
  | refused => exact ⟨0, ⟨.unspecified, 0⟩, _, .nil⟩
  | @unregistered token e calls hr =>
    rw [turns_calls]
    exact ⟨0, ⟨.unspecified, 0⟩, _, .nil⟩
  | @closed token c L deleted H =>
    obtain ⟨-, now, peer, Hcourse⟩ := H.course
    rw [turns_append, turns_calls, List.append_nil]
    exact ⟨now, peer, c, Hcourse⟩
  | @finished token c c' L ready files now stats stats' ops verdict deleted H Hh =>
    obtain ⟨hc, born, peer, Hcourse⟩ := H.course
    rw [turns_taken]
    exact ⟨born, peer, c',
      .snoc (t := ⟨c, ready, files, now, verdict, c'⟩) Hcourse (hc.turn Hh).1⟩
  | @unarmed token c c' L ready files now stats stats' ops e deleted H Hh =>
    obtain ⟨hc, born, peer, Hcourse⟩ := H.course
    rw [turns_taken]
    exact ⟨born, peer, c',
      .snoc (t := ⟨c, ready, files, now, .rearm, c'⟩) Hcourse (hc.turn Hh).1⟩

end

/-- With room for at least one byte, receiving nothing means that nothing more will come. -/
theorem Talk.recv_eq_nil_iff {room : Nat} (h : 0 < room) (x : Exchange) :
    (Talk.recv room x).1 = .ok [] ↔ x.pending.recv.head? = some (.ok []) := by
  rcases hr : x.pending.recv.head? with _ | e | data
  · have hfst : (Talk.recv room x).1 = .error .EAGAIN := by simp [recv, hr]
    simp [hfst]
  · have hfst : (Talk.recv room x).1 = .error e := by simp [recv, hr]
    simp [hfst]
  · have hfst : (Talk.recv room x).1 = .ok (data.take room) := by simp [recv, hr]
    have hroom : room ≠ 0 := Nat.ne_of_gt h
    simp [hfst, List.take_eq_nil_iff, hroom]

/-- How the records of all connections, and what has been done about them, are in order. -/
structure Moment.Coheres (m : Moment) : Prop where
  coherent {token : Token} {c : Connection} (h : m.server.connections.get? token = some c) :
    c.Coherent
  running {token : Token} {c : Connection} (h : m.server.connections.get? token = some c) :
    c.stage.isOver = false ∧ c.stage.Leads c.fail.stage
  /-- A record is what the turns of the connection have made of it. -/
  course {token : Token} {c : Connection} (h : m.server.connections.get? token = some c)
    {L : List Occurrence} (hL : Current m.history c.socket L) :
    ∃ now peer, Course (Connection.new now c.socket peer) (turns L) c
  past {fd : Fd} {L : List Occurrence} (hL : Lifetime m.history fd L) :
    ∃ now peer c, Course (Connection.new now fd peer) (turns L) c
  /-- No turn is given to a connection that is over. -/
  turns : ∀ t ∈ turns m.history, t.Orderly ∧ t.before.stage.isOver = false
  room {room : Nat} {result : Except Errno (List UInt8)}
    (h : .recv room result ∈ operations m.history) : 1 ≤ room ∧ room ≤ Connection.requestSize
  /-- To receive nothing is to have been told that no more will come. -/
  silence {token : Token} {c : Connection} (h : m.server.connections.get? token = some c)
    (hs : c.stage = .accepted) :
    Connection.room c.request + c.request.length = Connection.requestSize ∧
      ∀ x, (Talk.recv (Connection.room c.request) x).1 = .ok [] ↔
        x.pending.recv.head? = some (.ok [])

/-- Whenever the server is at rest, the record of every connection in the table is coherent, and is
what the turns of the connection have made of it. In the whole run no turn is given to a
connection that is over, none fails for the lack of a response, and there is always room to receive
into. -/
theorem records_cohere {m : Moment} (H : Reachable m) : m.Coheres where
  coherent h := H.coherent.table h
  running h := ⟨(H.coherent.table h).not_isOver, .failed (H.coherent.table h).not_isOver⟩
  course h _ hL := ((H.lived h).2 _ hL).course.2
  past hL := by
    rcases hL.ended_or_lived H with He | ⟨token, c, Hl⟩
    · exact He.course
    · obtain ⟨-, now, peer, Hcourse⟩ := Hl.course
      exact ⟨now, peer, c, Hcourse⟩
  turns t ht := ⟨H.coherent.orderly t ht, (H.coherent.orderly t ht).leads.not_isOver⟩
  room hop := H.coherent.hasRoom _ hop
  silence h hs := by
    have hlt := (H.coherent.table h).length_lt hs
    exact ⟨Nat.sub_add_cancel (Nat.le_of_lt hlt), Talk.recv_eq_nil_iff (Connection.room_pos hlt).1⟩

theorem records_cohere_blocked :
    (∃ c, Moment.blocked.server.connections.get? 1 = some c ∧
      c.stage = .requestReceived ∧ c.response = some ⟨6, 63, 2, 1⟩ ∧ c.Coherent) ∧
    ∃ t ∈ turns Moment.blocked.history, t.before.stage = .accepted ∧ t.Orderly := by
  have H := records_cohere Reachable.blocked
  have hc : ∃ c, Moment.blocked.server.connections.get? 1 = some c ∧
      c.stage = .requestReceived ∧ c.response = some ⟨6, 63, 2, 1⟩ := ⟨_, rfl, rfl, rfl⟩
  have hturn : ∃ t ∈ turns Moment.blocked.history, t.before.stage = .accepted :=
    ⟨_, List.mem_cons_self .., rfl⟩
  obtain ⟨c, ht, hs, hr⟩ := hc
  obtain ⟨t, hmem, hbefore⟩ := hturn
  exact ⟨⟨c, ht, hs, hr, H.coherent ht⟩, t, hmem, hbefore, (H.turns t hmem).1⟩

end OnePage
