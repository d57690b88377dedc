import DistroSync.DeadLetters

/-!
# Payloads

A task carries the payload its producer submitted, in memory and in its row of `tasks`,
through every redelivery and every restart (`payload_of_produced`).  Dead-lettering is
where it can get lost: `_handle_nack` does not write the task it has in hand to the
dead letter table but a stub, and looks the payload up among the 100 oldest dead
letters in memory.  The task was just added behind them, so the payload is found when
fewer than 100 were there before, and is an empty object otherwise
(`deadLetterPayload_add`).
-/

namespace DistroSync

open Keyed Py

section Provenance

/-! ## A task keeps its payload -/

/-- The task is pending, in flight or dead-lettered. -/
def Ledger.Has (l : Ledger) (task : Task) : Prop :=
  task ∈ l.pending ∨ task ∈ l.inFlight ∨ task ∈ l.dead

/-- No move changes the queue or the payload of a task. -/
theorem Moved.origin {id : String} {maxRetries : Nat} {retries : Prop} {l l' : Ledger}
    {task : Task} (moved : Moved id maxRetries retries l l') (inside : l'.Has task) :
    task.taskId = id ∨
      ∃ origin, l.Has origin ∧ origin.taskId = task.taskId ∧
        origin.queueName = task.queueName ∧ origin.payload = task.payload := by
  have stays (old : l.Has task) : ∃ origin, l.Has origin ∧ origin.taskId = task.taskId ∧
      origin.queueName = task.queueName ∧ origin.payload = task.payload :=
    ⟨task, old, rfl, rfl, rfl⟩
  cases moved with
  | still => exact Or.inr (stays inside)
  | created fresh unused =>
    rcases inside with pending | elsewhere
    · rcases Multiset.mem_cons.mp pending with rfl | old
      · exact Or.inl fresh
      · exact Or.inr (stays (Or.inl old))
    · exact Or.inr (stays (Or.inr elsewhere))
  | @delivered head rest workerId split =>
    rcases inside with pending | flying | dead
    · exact Or.inr (stays (Or.inl (split ▸ Multiset.mem_cons_of_mem pending)))
    · rcases Multiset.mem_cons.mp flying with rfl | old
      · exact Or.inr ⟨head, Or.inl (split ▸ Multiset.mem_cons_self _ _), rfl, rfl, rfl⟩
      · exact Or.inr (stays (Or.inr (Or.inl old)))
    · exact Or.inr (stays (Or.inr (Or.inr dead)))
  | acknowledged split =>
    rcases inside with pending | flying | dead
    · exact Or.inr (stays (Or.inl pending))
    · exact Or.inr (stays (Or.inr (Or.inl (split ▸ Multiset.mem_cons_of_mem flying))))
    · exact Or.inr (stays (Or.inr (Or.inr dead)))
  | @buried buried rest now split =>
    rcases inside with pending | flying | dead
    · exact Or.inr (stays (Or.inl pending))
    · exact Or.inr (stays (Or.inr (Or.inl (split ▸ Multiset.mem_cons_of_mem flying))))
    · rcases Multiset.mem_cons.mp dead with rfl | old
      · exact Or.inr ⟨buried, Or.inr (Or.inl (split ▸ Multiset.mem_cons_self _ _)), rfl, rfl, rfl⟩
      · exact Or.inr (stays (Or.inr (Or.inr old)))
  | @requeued back rest split left =>
    rcases inside with pending | flying | dead
    · rcases Multiset.mem_cons.mp pending with rfl | old
      · exact Or.inr ⟨back, Or.inr (Or.inl (split ▸ Multiset.mem_cons_self _ _)), rfl, rfl, rfl⟩
      · exact Or.inr (stays (Or.inl old))
    · exact Or.inr (stays (Or.inr (Or.inl (split ▸ Multiset.mem_cons_of_mem flying))))
    · exact Or.inr (stays (Or.inr (Or.inr dead)))
  | evicted returns completed dead =>
    rcases inside with pending | flying | buried
    · rcases (returns.mem_pending task).mp pending with old | ⟨origin, flying, -, rfl⟩
      · exact Or.inr (stays (Or.inl old))
      · exact Or.inr ⟨origin, Or.inr (Or.inl flying), rfl, rfl, rfl⟩
    · exact Or.inr (stays (Or.inr (Or.inl ((returns.mem_source task).mp flying).1)))
    · exact Or.inr (stays (Or.inr (Or.inr (dead ▸ buried))))
  | retried may returns inFlight completed =>
    rcases inside with pending | flying | buried
    · rcases (returns.mem_pending task).mp pending with old | ⟨origin, dead, -, rfl⟩
      · exact Or.inr (stays (Or.inl old))
      · exact Or.inr ⟨origin, Or.inr (Or.inr dead), rfl, rfl, rfl⟩
    · exact Or.inr (stays (Or.inr (Or.inl (inFlight ▸ flying))))
    · exact Or.inr (stays (Or.inr (Or.inr ((returns.mem_source task).mp buried).1)))
  | purged fewer =>
    rcases inside with pending | flying | dead
    · exact Or.inr (stays (Or.inl pending))
    · exact Or.inr (stays (Or.inr (Or.inl flying)))
    · exact Or.inr (stays (Or.inr (Or.inr (Multiset.mem_of_le fewer dead))))
  | cleared =>
    rcases inside with none | none | none <;> exact absurd none (Multiset.notMem_zero task)

/-- No statement changes the queue or the payload of a row of `tasks`. -/
theorem DiskMoved.origin {platform : Platform} {id : String} {l : Ledger} {db db' : Database}
    {row : TaskRow} (moved : DiskMoved platform id l db db') (stored : row ∈ db'.tasks) :
    row.taskId = id ∨
      ∃ origin ∈ db.tasks, origin.taskId = row.taskId ∧
        origin.queueName = row.queueName ∧ origin.payload = row.payload := by
  have stays (old : row ∈ db.tasks) : ∃ origin ∈ db.tasks, origin.taskId = row.taskId ∧
      origin.queueName = row.queueName ∧ origin.payload = row.payload :=
    ⟨row, old, rfl, rfl, rfl⟩
  cases moved with
  | still => exact Or.inr (stays stored)
  | saved fresh encoded unused =>
    rcases Table.mem_upsert.mp stored with rfl | ⟨old, -⟩
    · exact Or.inl fresh
    · exact Or.inr (stays old)
  | marked known =>
    rcases Database.mem_updateTaskStatus.mp stored with ⟨old, -⟩ | ⟨origin, old, -, rfl⟩
    · exact Or.inr (stays old)
    · exact Or.inr ⟨origin, old, rfl, rfl, rfl⟩
  | buried known encoded => exact Or.inr (stays (Table.mem_erase.mp stored).1)
  | deleted => exact Or.inr (stays stored)
  | replayed fresh encoded unused =>
    rcases Table.mem_upsert.mp stored with rfl | ⟨old, -⟩
    · exact Or.inl fresh
    · exact Or.inr (stays old)
  | @purged name => cases name <;> exact Or.inr (stays stored)
  | cleared => exact absurd stored (Table.not_mem_empty row)

variable {config : Config} {platform : Platform} {t : String} {payload : Json}
  {p : Scalar → Json → Prop} {d : String → String → Prop}

/-- Wherever `t` is in memory, its queue and its payload satisfy `p`. -/
def Ledger.Each (l : Ledger) (t : String) (p : Scalar → Json → Prop) : Prop :=
  ∀ task, l.Has task → task.taskId = t → p task.queueName task.payload

/-- The queue and the payload of the row of `t`, if there is one, satisfy `d`. -/
def Database.Each (db : Database) (t : String) (d : String → String → Prop) : Prop :=
  ∀ row ∈ db.tasks, row.taskId = t → d row.queueName row.payload

/-- Recovery carries over to a task what is known of its row. -/
def Restores (platform : Platform) (d : String → String → Prop) (p : Scalar → Json → Prop) :
    Prop :=
  ∀ name text payload, d name text → platform.loads text = some payload → p (.str name) payload

/-- During the recovery phase: the rows that are still to come, the memory and the file so far
satisfy what is known of `t`. -/
def Carrying (t : String) (d : String → String → Prop) (p : Scalar → Json → Prop)
    (rows : List TaskRow) (c : Core) : Prop :=
  (∀ row ∈ rows, row.taskId = t → d row.queueName row.payload) ∧
    c.queueManager.ledger.Each t p ∧ c.disk.Each t d

theorem Carrying.recoverRow {env : Env} {row : TaskRow} {rest : List TaskRow} {decoded : Json}
    {c : Core} (restores : Restores platform d p)
    (decodes : platform.loads row.payload = some decoded)
    (carrying : Carrying t d p (row :: rest) c) :
    Carrying t d p rest (c.recoverRow env row decoded) := by
  obtain ⟨rows, memory, onDisk⟩ := carrying
  refine ⟨fun row' later => rows row' (List.mem_cons_of_mem _ later), ?_, ?_⟩
  · simp only [Core.recoverRow, QueueManager.ledger_enqueueRecovered]
    rintro task (pending | elsewhere) isT
    · simp only [Multiset.mem_cons] at pending
      rcases pending with rfl | old
      · exact restores _ _ _ (rows row List.mem_cons_self isT) decodes
      · exact memory task (Or.inl old) isT
    · exact memory task (Or.inr elsewhere) isT
  · intro row' stored isT
    rcases Database.mem_updateTaskStatus.mp stored with ⟨old, -⟩ | ⟨origin, old, -, rfl⟩
    · exact onDisk row' old isT
    · exact onDisk origin old isT

/-- The recovery phase gives every task the queue and the payload of its row. -/
theorem Recovery.each {env : Env} {crashes : Prop} {disk : Database} {r : Except Stop Unit}
    {c : Core} (restores : Restores platform d p) (each : disk.Each t d)
    (recovery : Recovery platform env crashes disk.loadPendingTasks (startCore config env disk)
      r c) :
    c.disk.Each t d ∧ (r = .ok () → c.queueManager.ledger.Each t p) := by
  have start : Carrying t d p disk.loadPendingTasks (startCore config env disk) := by
    refine ⟨fun row live => each row (Database.mem_loadPendingTasks.mp live).1, ?_, each⟩
    rintro task (none | none | none) <;> exact absurd none (Multiset.notMem_zero task)
  obtain ⟨rest, reached, ⟨-, memory, onDisk⟩, same, complete⟩ := recovery.invariant start
    fun _ _ _ _ decodes carrying => carrying.recoverRow restores decodes
  refine ⟨same ▸ onDisk, fun done => ?_⟩
  rw [(complete done).2]
  exact memory

theorem each_preserved (restores : Restores platform d p) (t : String) :
    Preserved config platform DrawsFresh
      (fun events c => c.Sound config platform (drawn events) ∧
        c.queueManager.ledger.Each t p ∧ c.disk.Each t d ∧ t ∈ drawn events)
      (fun events disk => (disk.Sound platform (drawn events) ∧
        (config.persistent = false → disk = {})) ∧ disk.Each t d ∧ t ∈ drawn events) where
  durable := by
    rintro events c ⟨sound, -, onDisk, known⟩
    exact ⟨⟨sound.disk, sound.volatile⟩, onDisk, known⟩
  ran := by
    rintro events broker disk event r c outcome - ⟨sound, memory, onDisk, known⟩ fresh effect - -
    have other : event.env.uuid.text ≠ t := fun same => fresh (same ▸ known)
    rw [drawn_concat]
    refine ⟨sound.effect fresh effect, ?_, ?_, List.mem_append_left _ known⟩
    · rintro task inside rfl
      rcases (effect.moved sound.distinct).origin inside with
        isNew | ⟨origin, old, same, queue, payload⟩
      · exact absurd isNew.symm other
      · rw [← queue, ← payload]
        exact memory origin old same
    · rintro row stored rfl
      rcases (effect.diskMoved sound.distinct).origin stored with
        isNew | ⟨origin, old, same, queue, payload⟩
      · exact absurd isNew.symm other
      · rw [← queue, ← payload]
        exact onDisk origin old same
  ignored := by
    rintro events disk event ⟨⟨sound, volatile⟩, onDisk, known⟩ - -
    rw [drawn_concat]
    exact ⟨⟨sound.mono, volatile⟩, onDisk, List.mem_append_left _ known⟩
  recovered := by
    rintro events disk event r c outcome ⟨sound, onDisk, known⟩ fresh persistent recovery mute
      shown
    obtain ⟨stillSound, complete⟩ := (sound_preserved config platform).recovered sound fresh
      persistent recovery mute shown
    obtain ⟨still, memory⟩ := recovery.each restores onDisk
    have stillKnown : t ∈ drawn (events ++ [event]) := by
      rw [drawn_concat]
      exact List.mem_append_left _ known
    exact ⟨⟨stillSound, still, stillKnown⟩, fun done => ⟨complete done, memory done, still,
      stillKnown⟩⟩
  fresh := by
    rintro events disk event outcome ⟨sound, onDisk, known⟩ fresh volatile mute shown
    refine ⟨(sound_preserved config platform).fresh sound fresh volatile mute shown, ?_, onDisk, ?_⟩
    · rintro task (none | none | none) <;> exact absurd none (Multiset.notMem_zero task)
    · rw [drawn_concat]
      exact List.mem_append_left _ known

/-- Wherever `t` is in memory, it has this payload. -/
def Ledger.Carries (l : Ledger) (t : String) (payload : Json) : Prop :=
  ∀ task, l.Has task → task.taskId = t → task.payload = payload

/-- The row of `t`, if there is one, has this payload. -/
def Database.Carries (platform : Platform) (db : Database) (t : String) (payload : Json) : Prop :=
  ∀ row ∈ db.tasks, row.taskId = t → platform.Encodes payload row.payload

theorem restores_payload (payload : Json) :
    Restores platform (fun _ text => platform.Encodes payload text)
      (fun _ decoded => decoded = payload) := by
  intro name text decoded encodes decodes
  exact Option.some.inj (decodes.symm.trans encodes.loads)

/-- A PRODUCE that is answered with `t` leaves `t` with the payload of the message. -/
theorem carries_of_produced {events : List Event} {produce : Event} {message : Message}
    (persistent : config.persistent = true) (fresh : FreshIds (events ++ [produce]))
    (received : produce.action = .command message)
    (answered : (step config platform (reach config platform events) produce).1 =
      .answered (.produced t)) :
    (reach config platform (events ++ [produce])).Holds
      (fun c => c.Sound config platform (drawn (events ++ [produce])) ∧
        c.queueManager.ledger.Carries t (message.get "task" .null) ∧
        c.disk.Carries platform t (message.get "task" .null) ∧ t ∈ drawn (events ++ [produce]))
      (fun disk => (disk.Sound platform (drawn (events ++ [produce])) ∧
        (config.persistent = false → disk = {})) ∧
        disk.Carries platform t (message.get "task" .null) ∧ t ∈ drawn (events ++ [produce])) := by
  have drawsFresh := @FreshIds.drawsFresh config platform _ fresh
  have before := (sound_preserved config platform).holds
    ⟨Database.sound_empty, fun _ => rfl⟩ drawsFresh.front
  obtain ⟨broker, disk, broker', disk', position, next, -, effect⟩ := step_answered answered
  rw [reach_concat, next, drawn_concat]
  rw [position] at before
  have sound : (broker.core disk).Sound config platform (drawn events) := before
  have after := Core.Sound.effect (m := { broker, disk, crashIn := produce.crashIn }) sound
    drawsFresh.last effect
  rw [received] at effect
  obtain ⟨rfl, queue, -, memory, onDisk⟩ := effect.of_produced
  obtain ⟨row, binds, saved⟩ := onDisk (sound.opened persistent)
  have isNew : produce.env.uuid.text ∉ drawn events := drawsFresh.last
  refine ⟨after, ?_, ?_, by simp⟩
  · rw [memory, QueueManager.ledger_enqueue]
    rintro task (pending | flying | dead) isT
    · simp only [Multiset.mem_cons] at pending
      rcases pending with rfl | old
      · rfl
      · exact absurd (isT ▸ sound.mem_used (Or.inl old)) isNew
    · exact absurd (isT ▸ sound.mem_used (Or.inr (Or.inl flying))) isNew
    · exact absurd (isT ▸ sound.mem_used (Or.inr (Or.inr (Or.inr dead)))) isNew
  · rw [saved]
    intro row' stored isT
    rcases Table.mem_upsert.mp stored with rfl | ⟨old, -⟩
    · exact (Platform.taskRow_ok binds).2.1
    · exact absurd (isT ▸ (sound.disk.tasks row' old).1) isNew

/-- **A task carries what its producer submitted**, wherever it is and whatever happened
since. -/
theorem payload_of_produced {front back : List Event} {produce : Event} {message : Message}
    {broker : Broker} {disk : Database} {task : Task} (persistent : config.persistent = true)
    (fresh : FreshIds (front ++ produce :: back)) (received : produce.action = .command message)
    (answered : (step config platform (reach config platform front) produce).1 =
      .answered (.produced task.taskId))
    (position : reach config platform (front ++ produce :: back) = .running broker disk)
    (inside : broker.queueManager.ledger.Has task) :
    task.payload = message.get "task" .null := by
  rw [List.append_cons] at fresh position
  have start := carries_of_produced persistent
    (fresh.sublist (List.sublist_append_left _ _ |>.map Event.id)) received answered
  have carried := (each_preserved (restores_payload (message.get "task" .null))
    task.taskId).holds_from start fresh.drawsFresh_after
  rw [position] at carried
  exact carried.2.1 task inside rfl

end Provenance

/-! ## The payload of a dead letter -/

section DeadLettering

variable {config : Config} {platform : Platform} {t : String}

/-- The row has what is known of the task. -/
def DlqRow.Records (platform : Platform) (row : DlqRow) (task : Task) : Prop :=
  row.taskId = task.taskId ∧ platform.requiredTextOf task.queueName.toJson = .ok row.queueName ∧
    row.attempts = task.attempts ∧ platform.Encodes task.payload row.payload

/-- `_handle_nack` finds the payload of the task in memory, or would find no other. -/
def KeepsPayload (broker : Broker) (task : Task) : Prop :=
  broker.queueManager.deadLetterQueue.count < 100 ∨ task.payload = .obj []

theorem keepsPayload_iff {broker : Broker} {task : Task} :
    (if broker.queueManager.deadLetterQueue.count < 100 then task.payload else .obj []) =
      task.payload ↔ KeepsPayload broker task := by
  unfold KeepsPayload
  split_ifs with room
  · simp [room]
  · simp [room, eq_comm]

/-- The row that a dead-lettering NACK writes. -/
theorem deadLetter_row {env : Env} {broker : Broker} {disk : Database} {crashIn : Option Nat}
    {message : Message} {task : Task} {attempts : Nat} {text : String} {c : Core}
    {used : List String} (sound : (broker.core disk).Sound config platform used)
    (persistent : config.persistent = true) (named : message.get "task_id" .null = .str t)
    (flying : broker.queueManager.inFlight.find? t = some task)
    (effect : Effect platform env { broker, disk, crashIn } (.command message)
      (.ok (.answered (.negativeAcknowledged .deadLettered attempts text))) c) :
    ∃ row, c.disk.deadLetterQueue.find? t = some row ∧ row.taskId = task.taskId ∧
      platform.requiredTextOf task.queueName.toJson = .ok row.queueName ∧
      row.attempts = task.attempts ∧
      platform.Encodes
        (if broker.queueManager.deadLetterQueue.count < 100 then task.payload else .obj [])
        row.payload := by
  obtain ⟨id, taken, named', nacked, -, onDisk⟩ := effect.of_negativeAcknowledged
  cases named.symm.trans named'
  obtain ⟨statements, binds, run⟩ := onDisk (sound.opened persistent)
  obtain ⟨origin, found, spec⟩ := QueueManager.negativeAcknowledge_some nacked
  cases flying.symm.trans found
  have isId : task.taskId = t := Table.key_of_find? flying
  obtain ⟨row, isTask, bound, rfl⟩ := nackStatements_deadLettered binds
  obtain ⟨-, payload, tries, -, -, queue⟩ := Platform.dlqRow_ok bound
  have rowId : row.taskId = t := (isTask.trans spec.taskId_eq).trans isId
  have stored : (disk.deadLetterQueue.upsert row).find? row.taskId = some row :=
    Table.find?_upsert_self _ row
  refine ⟨row, ?_, rowId.trans isId.symm, ?_, tries.trans spec.attempts_eq, ?_⟩
  · rw [run, ← rowId]
    exact stored
  · rw [← spec.queueName_eq]
    exact queue
  · have distinct : broker.queueManager.Distinct := sound.distinct
    have absent := distinct.dead_absent flying
    rw [← spec.taskId_eq] at absent
    have looked := @deadLetterPayload_add taken env.time _ absent
    rw [← spec.deadLetterQueue_eq, spec.payload_eq] at looked
    exact looked ▸ payload

/-- The dead letter row of `t`, if there is one, has this text for a payload. -/
def Database.Buries (db : Database) (t : String) (payload : String) : Prop :=
  ∀ row ∈ db.deadLetterQueue, row.taskId = t → row.payload = payload

/-- A property of the database alone. -/
theorem System.holds_disk (F : Database → Prop) {system : System} :
    system.Holds (fun c => F c.disk) F ↔ F system.disk := by
  cases system <;> rfl

/-- Until the task is NACKed again, its row of the dead letter table is as it was, or gone. -/
theorem buries_preserved (t payload : String) :
    Preserved config platform (fun _ _ event => ¬event.action.Nacks t)
      (fun _ c => c.disk.Buries t payload) (fun _ disk => disk.Buries t payload) where
  durable rows := rows
  ran := by
    rintro events broker disk event r c outcome - rows other effect - - row stored rfl
    rcases effect.buried _ stored with old | ⟨nacks, -⟩
    · exact rows row old rfl
    · exact absurd nacks other
  ignored rows _ _ := rows
  recovered := by
    rintro events disk event r c outcome rows - - recovery - -
    have still : c.disk.Buries t payload := by
      intro row stored
      rw [recovery.deadLetterQueue] at stored
      exact rows row stored
    exact ⟨still, fun _ => still⟩
  fresh rows _ _ _ _ := rows

/-- What a DLQ_REPLAY puts into the queue is the payload of the row. -/
theorem replayed_payload {events : List Event} {replay : Event} {original replayed : String}
    {payload : Json} {text : String} (persistent : config.persistent = true)
    (fresh : FreshIds events) (encodes : platform.Encodes payload text)
    (rows : (reach config platform events).disk.Buries original text)
    (answered : (step config platform (reach config platform events) replay).1 =
      .answered (.replayed original replayed)) :
    ∃ broker disk, (step config platform (reach config platform events) replay).2 =
        .running broker disk ∧
      ∃ copy ∈ broker.queueManager.pending, copy.taskId = replayed ∧ copy.payload = payload := by
  have before := @reach_sound config platform _ fresh
  obtain ⟨broker, disk, broker', disk', position, next, -, effect⟩ := step_answered answered
  rw [position] at before rows
  have sound : (broker.core disk).Sound config platform (drawn events) := before
  obtain ⟨message, received⟩ := effect.command_of_answered
  rw [received] at effect
  obtain ⟨rfl, row, decoded, found, isRow, decodes, memory⟩ :=
    effect.of_replayed (sound.opened persistent)
  rw [rows row (sound.disk.namedRow found).1 isRow, encodes.loads] at decodes
  cases decodes
  let copy : Task := replay.env.task (.str row.queueName) payload
  have queued : broker'.queueManager.ledger.pending =
      copy ::ₘ broker.queueManager.ledger.pending := by
    rw [← Broker.core_queueManager broker' disk', memory, QueueManager.ledger_enqueue]
    rfl
  have inside : copy ∈ broker'.queueManager.ledger.pending :=
    queued ▸ Multiset.mem_cons_self copy _
  exact ⟨broker', disk', next, copy, Multiset.mem_coe.mp inside, rfl, rfl⟩

/-- **When dead-lettering preserves the payload.**  After a NACK of the in-flight `task` that
was answered `dead_lettered`, the dead letter table has a row with its id, queue name,
attempts and payload if and only if fewer than 100 dead letters were in memory, or the
payload is an empty object.  A later DLQ_REPLAY re-enqueues the payload under the same
condition; and the payload is the one that was submitted. -/
theorem deadLettered_payload_iff {front : List Event} {nack : Event} {message : Message}
    {broker : Broker} {disk : Database} {task : Task} {attempts : Nat} {text : String}
    (persistent : config.persistent = true) (fresh : FreshIds (front ++ [nack]))
    (position : reach config platform front = .running broker disk)
    (flying : broker.queueManager.inFlight.find? t = some task)
    (received : nack.action = .command message) (named : message.get "task_id" .null = .str t)
    (answered : (step config platform (reach config platform front) nack).1 =
      .answered (.negativeAcknowledged .deadLettered attempts text)) :
    ((∃ row, (reach config platform (front ++ [nack])).disk.deadLetterQueue.find? t = some row ∧
        row.Records platform task) ↔ KeepsPayload broker task) ∧
    (∀ later replay replayed, FreshIds (front ++ [nack] ++ later) →
      (∀ event ∈ later, ¬event.action.Nacks t) →
      (step config platform (reach config platform (front ++ [nack] ++ later)) replay).1 =
        .answered (.replayed t replayed) →
      ∃ broker' disk', (step config platform (reach config platform (front ++ [nack] ++ later))
          replay).2 = .running broker' disk' ∧
        ∃ copy ∈ broker'.queueManager.pending, copy.taskId = replayed ∧
          (copy.payload = task.payload ↔ KeepsPayload broker task)) ∧
    ∀ early produce middle submitted, front = early ++ produce :: middle →
      produce.action = .command submitted →
      (step config platform (reach config platform early) produce).1 = .answered (.produced t) →
      task.payload = submitted.get "task" .null := by
  have before := @reach_sound config platform _
    (fresh.sublist (List.sublist_append_left _ _ |>.map Event.id))
  obtain ⟨broker₀, disk₀, broker', disk', position', next, -, effect⟩ := step_answered answered
  cases position.symm.trans position'
  rw [position] at before
  rw [received] at effect
  have isId : task.taskId = t := Table.key_of_find? flying
  obtain ⟨row, found, rowId, queue, tries, payload⟩ :=
    deadLetter_row before persistent named flying effect
  have after : (reach config platform (front ++ [nack])).disk = disk' := by
    rw [reach_concat, next]
    rfl
  rw [Broker.core_disk, ← after] at found
  refine ⟨?_, ?_, ?_⟩
  -- the row that the NACK wrote
  · rw [← keepsPayload_iff, found]
    constructor
    · rintro ⟨other, same, -, -, -, recorded⟩
      cases same
      exact Option.some.inj (payload.loads.symm.trans recorded.loads)
    · intro kept
      exact ⟨row, rfl, rowId, queue, tries, kept ▸ payload⟩
  -- the row stays until it is replayed, as nobody NACKs the id again
  · intro later replay replayed fresh' others replays
    have rows : (reach config platform (front ++ [nack])).disk.Buries t row.payload := by
      intro other stored isT
      rw [Table.eq_of_key_eq _ stored (Table.mem_of_find? found)
        (isT.trans (rowId.trans isId).symm)]
    have unnacked : ∀ first event last, later = first ++ event :: last →
        ¬event.action.Nacks t := fun first event last split => others event (by rw [split]; simp)
    have kept := (buries_preserved t row.payload).holds_from
      ((System.holds_disk (·.Buries t row.payload)).mpr rows) unnacked
    have rows' := (System.holds_disk (·.Buries t row.payload)).mp kept
    obtain ⟨broker'', disk'', running, copy, pending, isCopy, same⟩ :=
      replayed_payload persistent fresh' payload rows' replays
    refine ⟨broker'', disk'', running, copy, pending, isCopy, ?_⟩
    rw [same]
    exact keepsPayload_iff
  · rintro early produce middle submitted rfl asked produced
    subst isId
    exact payload_of_produced persistent
      (fresh.sublist (List.sublist_append_left _ _ |>.map Event.id)) asked produced position
      (Or.inr (Or.inl (Table.mem_of_find? flying)))

/-- A task is produced at `n` seconds, consumed, and fails. -/
def failAt (n : Nat) : List Event :=
  [.at n (.produce "q" "p"), .at (n + 1) (.consume "q" "w"), .at (n + 2) (.nack (idAt n))]

/-- A hundred tasks are dead-lettered, and one more is consumed. -/
def hundredRun : List Event :=
  .at 0 .start :: (List.range 100).flatMap (fun k => failAt (3 * k + 1)) ++
    [.at 301 (.produce "q" "p"), .at 302 (.consume "q" "w")]

/-- **The 101st dead letter.**  With one attempt per task, the row of the task has an empty
object in the place of its payload. -/
theorem hundred_first_loses_payload :
    ∃ broker disk task row,
      reach { persistent := true, maxRetries := 1 } .plain hundredRun = .running broker disk ∧
      broker.queueManager.inFlight.find? (idAt 301) = some task ∧
      (step { persistent := true, maxRetries := 1 } .plain (.running broker disk)
        (.at 303 (.nack (idAt 301)))).1.isDeadLettered = true ∧
      (step { persistent := true, maxRetries := 1 } .plain (.running broker disk)
        (.at 303 (.nack (idAt 301)))).2.disk.deadLetterQueue.find? (idAt 301) = some row ∧
      row.payload = Platform.plain.jsonText (.obj []) ∧
      row.payload ≠ Platform.plain.jsonText task.payload := by
  let after (broker : Broker) (disk : Database) : Outcome × System :=
    step { persistent := true, maxRetries := 1 } .plain (.running broker disk)
      (.at 303 (.nack (idAt 301)))
  let test (broker : Broker) (disk : Database) : Bool :=
    (broker.queueManager.inFlight.find? (idAt 301)).any fun task =>
      (after broker disk).1.isDeadLettered &&
        ((after broker disk).2.disk.deadLetterQueue.find? (idAt 301)).any fun row =>
          decide (row.payload = Platform.plain.jsonText (.obj []) ∧
            row.payload ≠ Platform.plain.jsonText task.payload)
  obtain ⟨broker, disk, position, passed⟩ := @System.of_passes test
    (reach { persistent := true, maxRetries := 1 } .plain hundredRun) (by decide +kernel)
  obtain ⟨task, flying, passed⟩ := (Option.any_eq_true _ _).mp passed
  obtain ⟨answered, passed⟩ := Bool.and_eq_true_iff.mp passed
  obtain ⟨row, found, wrong⟩ := (Option.any_eq_true _ _).mp passed
  exact ⟨broker, disk, task, row, position, flying, answered, found, of_decide_eq_true wrong⟩

/-- The first dead letter keeps the payload that was submitted. -/
theorem deadLettered_payload_iff_first :
    ∃ broker disk task,
      reach { persistent := true } .plain failingRun = .running broker disk ∧
      broker.queueManager.inFlight.find? (idAt 1) = some task ∧
      (∃ row,
        (reach { persistent := true } .plain (failingRun ++ [lastNack])).disk.deadLetterQueue.find?
          (idAt 1) = some row ∧ row.Records .plain task) ∧
      task.payload = .str "p" := by
  obtain ⟨broker, disk, position, passed⟩ := @System.of_passes
    (fun broker _ => (broker.queueManager.inFlight.find? (idAt 1)).isSome &&
      decide (broker.queueManager.deadLetterQueue.count < 100))
    (reach { persistent := true } .plain failingRun) (by decide +kernel)
  obtain ⟨present, room⟩ := Bool.and_eq_true_iff.mp passed
  obtain ⟨task, flying⟩ := Option.isSome_iff_exists.mp present
  obtain ⟨attempts, text, answered⟩ := Outcome.of_isDeadLettered lastNack_deadLettered
  obtain ⟨row, -, submitted⟩ := deadLettered_payload_iff rfl (by decide +kernel) position flying rfl
    rfl answered
  refine ⟨broker, disk, task, position, flying, row.mpr (Or.inl (of_decide_eq_true room)), ?_⟩
  exact submitted [.at 0 .start] (.at 1 (.produce "q" "p")) _ _ rfl rfl
    (Outcome.of_isProduced (by decide +kernel))

end DeadLettering

end DistroSync
