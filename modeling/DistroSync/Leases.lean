import DistroSync.Lib.Lease
import DistroSync.Scenario

/-!
# Registrations as leases

A worker is registered as long as it is heard of: REGISTER grants, HEARTBEAT renews, and a
pass of the eviction loop withdraws the registrations that are more than six seconds old.
Nothing else touches the time at which a worker was last seen: not its deliveries, not its
ACKs and NACKs, and no other worker.

Hence the broker's registry can be computed by anyone who sees the messages and their
answers: it is the run of a `Lease` over the signs in the history.
-/

namespace DistroSync

open Keyed Py

/-- When a worker was last seen, if it is registered. -/
def WorkerRegistry.lastSeen (registry : WorkerRegistry) (worker : Key) : Option Rat :=
  (registry.workers.find? worker).map WorkerInfo.lastHeartbeat

/-- The same in a running process. -/
def System.lastSeen (worker : Key) : System → Option Rat
  | .running broker _ => broker.workerRegistry.lastSeen worker
  | .stopped _ => none

/-- What an event with its outcome says about a worker. -/
def sign (worker : Key) : Event × Outcome → Option (Lease.Sign Rat)
  | ({ action := .command message, env, .. }, .answered (.registered _ _)) =>
    if (message.get "worker_id" .null).key? = some worker then some (.grant env.time) else none
  | ({ action := .command message, env, .. }, .answered .heartbeat) =>
    if (message.get "worker_id" .null).key? = some worker then some (.renew env.time) else none
  | ({ action := .evict _, env, .. }, .completed) => some (.check env.time)
  | ({ action := .evict _, env, .. }, .raised _) => some (.check env.time)
  | (_, .crashed) => some .fail
  | _ => none

/-- The signs of a worker in a history. -/
def signs (worker : Key) (history : List (Event × Outcome)) : List (Lease.Sign Rat) :=
  history.filterMap (sign worker)

/-! ## The registry -/

namespace WorkerRegistry

variable {registry registry' : WorkerRegistry} {worker other : Key}

theorem lastSeen_congr (same : registry'.workers = registry.workers) :
    registry'.lastSeen worker = registry.lastSeen worker := by
  unfold lastSeen
  rw [same]

/-- A worker's record is replaced. -/
theorem lastSeen_put {info : WorkerInfo} (put : registry'.workers = registry.workers.put info) :
    registry'.lastSeen worker =
      if info.key = worker then some info.lastHeartbeat else registry.lastSeen worker := by
  unfold lastSeen
  rw [put]
  split_ifs with own
  · subst own
    rw [Table.find?_put_self]
    rfl
  · rw [Table.find?_put_of_ne _ (Ne.symm own)]

/-- A change that leaves alone when the worker was last seen. -/
theorem lastSeen_update {info info' : WorkerInfo} (found : registry.workers.find? other = some info)
    (put : registry'.workers = registry.workers.put info') (sameKey : info'.key = info.key)
    (sameTime : info'.lastHeartbeat = info.lastHeartbeat) :
    registry'.lastSeen worker = registry.lastSeen worker := by
  rw [lastSeen_put put]
  split_ifs with own
  · have isOther : info.key = other := Table.key_of_find? found
    rw [← own, sameKey, isOther, sameTime]
    unfold lastSeen
    rw [found]
    rfl
  · rfl

theorem lastSeen_assignTask (registry : WorkerRegistry) (other : Key) (taskId : String)
    (now : Rat) : (registry.assignTask other taskId now).lastSeen worker =
      registry.lastSeen worker := by
  unfold assignTask
  cases found : registry.workers.find? other with
  | none => rfl
  | some info => exact lastSeen_update found rfl (WorkerInfo.key_track ..) rfl

theorem lastSeen_completeTask (registry : WorkerRegistry) (other : Key) (taskId : String)
    (now : Rat) : (registry.completeTask other taskId now).2.lastSeen worker =
      registry.lastSeen worker := by
  have workers := registry.completeTask_workers other taskId now
  cases found : registry.workers.find? other with
  | none =>
    simp only [found] at workers
    exact lastSeen_congr workers
  | some info =>
    simp only [found] at workers
    exact lastSeen_update found workers (WorkerInfo.key_untrack ..) rfl

theorem lastSeen_completion (env : Env) (registry : WorkerRegistry) (message : Message)
    (id : String) : (completion env registry message id).2.lastSeen worker =
      registry.lastSeen worker := by
  unfold completion
  split
  · rfl
  · exact lastSeen_completeTask ..

theorem lastSeen_register (registry : WorkerRegistry) (workerId : Scalar) (queues : Json)
    (now : Rat) : (registry.register workerId queues now).2.lastSeen worker =
      if workerId.key = worker then some now else registry.lastSeen worker := by
  refine (lastSeen_put (show _ = registry.workers.put _ from rfl)).trans ?_
  rfl

theorem lastSeen_recordHeartbeat (registry : WorkerRegistry) (other : Key) (now : Rat) :
    (registry.recordHeartbeat other now).2.lastSeen worker =
      if other = worker then (registry.lastSeen worker).map fun _ => now
      else registry.lastSeen worker := by
  unfold recordHeartbeat
  cases found : registry.workers.find? other with
  | none =>
    split_ifs with own
    · subst own
      unfold lastSeen
      rw [found]
      rfl
    · rfl
  | some info =>
    have isOther : info.key = other := Table.key_of_find? found
    refine (lastSeen_put rfl).trans ?_
    rw [WorkerInfo.key_beat, isOther]
    split_ifs with own
    · subst own
      unfold lastSeen
      rw [found]
      rfl
    · rfl

/-- A pass keeps the workers that it does not take for dead. -/
theorem lastSeen_dropDead (registry : WorkerRegistry) (now : Rat) :
    (registry.dropDead now).lastSeen worker =
      (registry.lastSeen worker).filter fun t => !decide (heartbeatTimeoutSeconds < now - t) := by
  unfold lastSeen dropDead
  cases found : registry.workers.find? worker with
  | none =>
    have absent : (registry.workers.filter fun info => !expired now info).find? worker =
        none := by
      rw [Table.find?_eq_none] at found ⊢
      intro info inside
      exact found info (Table.mem_filter.mp inside).1
    rw [absent]
    rfl
  | some info =>
    obtain ⟨stored, isWorker⟩ := Table.find?_eq_some.mp found
    cases dead : expired now info with
    | false =>
      have kept : (registry.workers.filter fun info => !expired now info).find? worker =
          some info := by
        rw [Table.find?_eq_some, Table.mem_filter, dead]
        exact ⟨⟨stored, rfl⟩, isWorker⟩
      unfold expired at dead
      rw [kept]
      simp [Option.filter, of_decide_eq_false dead]
    | true =>
      have absent : (registry.workers.filter fun info => !expired now info).find? worker =
          none := by
        rw [Table.find?_eq_none]
        intro other inside clash
        obtain ⟨isStored, alive⟩ := Table.mem_filter.mp inside
        have same : other = info := by
          have isOther := Table.find?_eq_some.mpr ⟨isStored, clash⟩
          exact Option.some.inj (isOther.symm.trans found)
        rw [same, dead] at alive
        cases alive
      unfold expired at dead
      rw [absent]
      simp [Option.filter, of_decide_eq_true dead]

end WorkerRegistry

/-! ## One event -/

section Step

variable {config : Config} {platform : Platform} {worker : Key}

/-- A sign does to a registration what it does to a lease. -/
abbrev leaseAfter (registration : Option Rat) (sign : Option (Lease.Sign Rat)) : Option Rat :=
  sign.elim registration (Lease.step heartbeatTimeoutSeconds registration)

/-- A handler that changes no registration says nothing. -/
theorem Persist.sign_eq_none {message : Message} {env : Env} {crashIn point : Option Nat}
    {bound : Except Error (Database → Database)} {c c' : Core} {success : Response}
    {r : Except Stop Outcome}
    (persisted : Persist crashIn c bound (.answered success) r c')
    (survived : r ≠ .error .crashed) (other : success ≠ .heartbeat)
    (noGrant : ∀ isNew text, success ≠ .registered isNew text) :
    sign worker ({ action := .command message, env, crashIn := point }, outcomeOf r) = none := by
  have ends : sign worker ({ action := .command message, env, crashIn := point },
      .answered success) = none := by
    cases success with
    | heartbeat => exact absurd rfl other
    | registered isNew text => exact absurd rfl (noGrant isNew text)
    | _ => rfl
  cases persisted with
  | off absent => exact ends
  | died present binds spent => exact absurd rfl survived
  | refused present fails => rfl
  | committed present binds alive => exact ends

/-- **One action.**  Registrations change by the signs, and by nothing else. -/
theorem Effect.lastSeen {env : Env} {m : Machine} {action : Action} {r : Except Stop Outcome}
    {c : Core} (effect : Effect platform env m action r c) (survived : r ≠ .error .crashed)
    (uncrashed : ∀ pick, action ≠ .crashWorker pick) (crashIn : Option Nat) :
    c.workerRegistry.lastSeen worker =
      leaseAfter (m.broker.workerRegistry.lastSeen worker)
        (sign worker ({ action, env, crashIn }, outcomeOf r)) := by
  cases effect with
  | quiet idle silent =>
    rcases r with (e | _) | outcome
    · rfl
    · exact absurd rfl survived
    · cases outcome with
      | answered response => cases response <;> first | rfl | exact silent.elim
      | _ => exact silent.elim
  | produce command admitted named hashed persisted =>
    rw [persisted.memory.2.1, persisted.sign_eq_none survived (by simp) (by simp)]
    rfl
  | consume command admitted hashed taken consumer persisted =>
    rw [persisted.memory.2.1, persisted.sign_eq_none survived (by simp) (by simp)]
    exact WorkerRegistry.lastSeen_assignTask ..
  | register command hashed known =>
    refine (WorkerRegistry.lastSeen_register ..).trans ?_
    simp only [sign, outcomeOf, Json.key?, hashed, Option.map_some, Option.some.injEq]
    split_ifs <;> rfl
  | heartbeat command hashed =>
    refine (WorkerRegistry.lastSeen_recordHeartbeat ..).trans ?_
    simp only [sign, outcomeOf, Json.key?, hashed, Option.map_some, Option.some.injEq]
    split_ifs <;> rfl
  | ackAborted command admitted named found fails =>
    exact WorkerRegistry.lastSeen_completion ..
  | ack command admitted named found passes persisted =>
    rw [persisted.memory.2.1, persisted.sign_eq_none survived (by simp) (by simp)]
    exact WorkerRegistry.lastSeen_completion ..
  | nackAborted command admitted named nacked fails =>
    exact WorkerRegistry.lastSeen_completion ..
  | nack command admitted named nacked passes persisted =>
    rw [persisted.memory.2.1, persisted.sign_eq_none survived (by simp) (by simp)]
    exact WorkerRegistry.lastSeen_completion ..
  | replayDied command opened found spent => exact absurd rfl survived
  | replayCut command opened found decodes unsaved =>
    cases unsaved with
    | died spent => exact absurd rfl survived
    | refused fails => rfl
  | purge command opened counted persisted =>
    rw [persisted.memory.2.1, persisted.sign_eq_none survived (by simp) (by simp)]
    rfl
  | @evict order result registry qm r ran ending =>
    obtain ⟨-, workers, -⟩ := evictDeadWorkers_spec ran
    refine (WorkerRegistry.lastSeen_congr workers).trans
      ((WorkerRegistry.lastSeen_dropDead ..).trans ?_)
    -- the pass drops the dead workers before anything can raise
    cases result with
    | ok done =>
      subst ending
      rfl
    | error e =>
      subst ending
      rfl
  | reset persisted =>
    rw [persisted.memory.2.1]
    cases persisted with
    | died present binds spent => exact absurd rfl survived
    | _ => rfl
  | crashNobody => exact absurd rfl (uncrashed _)
  | crashWorker active => exact absurd rfl (uncrashed _)
  | crash => exact absurd rfl survived
  -- the others give no sign of life
  | _ => rfl

/-- A process that was just started knows no worker. -/
theorem lastSeen_of_started {event : Event} {disk disk' : Database} {broker : Broker}
    (recovery : config.persistent = true →
      Recovery platform event.env (event.crashIn ≠ none) disk.loadPendingTasks
        (startCore config event.env disk) (.ok ()) (broker.core disk'))
    (fresh : config.persistent = false → broker.core disk' = startCore config event.env disk) :
    broker.workerRegistry.lastSeen worker = none := by
  have registry : (broker.core disk').workerRegistry = {} := by
    cases persistent : config.persistent with
    | true => exact (recovery persistent).frame.2.2
    | false => rw [fresh persistent]; rfl
  show (broker.core disk').workerRegistry.lastSeen worker = none
  rw [registry]
  rfl

theorem step_lastSeen {system : System} {event : Event}
    (uncrashed : ∀ pick, event.action ≠ .crashWorker pick) :
    (step config platform system event).2.lastSeen worker =
      leaseAfter (system.lastSeen worker)
        (sign worker (event, (step config platform system event).1)) := by
  have transition := step_transition config platform system event
  generalize (step config platform system event).1 = outcome at transition ⊢
  generalize (step config platform system event).2 = next at transition ⊢
  have dies : ∀ lease, leaseAfter lease (sign worker (event, .crashed)) = none := by
    intro lease
    obtain ⟨action, env, crashIn⟩ := event
    cases action <;> rfl
  cases transition with
  | ran effect whole survived => exact effect.lastSeen survived uncrashed event.crashIn
  | died effect cut => exact (dies _).symm
  | ignored other =>
    obtain ⟨action, env, crashIn⟩ := event
    cases action <;> rfl
  | started starts whole recovery fresh =>
    refine (lastSeen_of_started recovery fresh).trans ?_
    obtain ⟨action, env, crashIn⟩ := event
    cases starts
    rfl
  | failed starts recovery fresh why =>
    rcases why with ⟨e, rfl, -⟩ | ⟨rfl, -⟩
    · obtain ⟨action, env, crashIn⟩ := event
      cases starts
      rfl
    · exact (dies _).symm

end Step

/-! ## Whole runs -/

section Runs

variable {config : Config} {platform : Platform} {worker : Key} {events : List Event}

/-- **The registry is a run of leases.** -/
theorem reach_lastSeen (uncrashed : ∀ event ∈ events, ∀ pick, event.action ≠ .crashWorker pick) :
    (reach config platform events).lastSeen worker =
      Lease.run heartbeatTimeoutSeconds none (signs worker (history config platform events)) := by
  induction events using List.reverseRecOn with
  | nil => rfl
  | append_singleton front event ih =>
    have before := ih fun earlier inside => uncrashed earlier (List.mem_append_left _ inside)
    rw [reach_concat, history_concat,
      step_lastSeen (uncrashed event (List.mem_append_right _ List.mem_cons_self)), before]
    unfold signs
    rw [List.filterMap_append, Lease.run_append]
    show leaseAfter _ _ = Lease.run _ _ (List.filterMap _ [_])
    rw [List.filterMap_cons]
    cases sign worker (event, (step config platform (reach config platform front) event).1) <;>
      rfl

/-- **When a worker is registered.**  After every run of commands, passes, resets, replays,
crashes and starts, a worker is registered, last seen at `seen`, if and only if a REGISTER in
its name was answered since the process was started, and since the last of these every pass of
the eviction loop came at most six seconds after the latest sign of life before it, be it the
REGISTER or a HEARTBEAT; and `seen` is the time of the latest one. -/
theorem lastSeen_eq_some_iff {seen : Rat}
    (uncrashed : ∀ event ∈ events, ∀ pick, event.action ≠ .crashWorker pick) :
    (reach config platform events).lastSeen worker = some seen ↔
      ∃ before now after,
        signs worker (history config platform events) = before ++ .grant now :: after ∧
          (∀ sign ∈ after, sign.decides = false) ∧ Lease.InTime 6 now after ∧
            Lease.last now after = seen := by
  rw [reach_lastSeen uncrashed]
  exact Lease.run_eq_some_iff

end Runs

/-- A worker registers, beats once, and is still there after a pass at the last moment. -/
def beatenRun : List Event :=
  [.at 0 .start, .at 1 (.register "w"), .at 2 (.heartbeat "w"), .at 8 (.evict .insertion)]

theorem lastSeen_beatenRun :
    (reach { persistent := true } .plain beatenRun).lastSeen (Scalar.str "w").key = some 2 ∧
      ∃ before now after,
        signs (Scalar.str "w").key (history { persistent := true } .plain beatenRun) =
            before ++ .grant now :: after ∧
          (∀ sign ∈ after, sign.decides = false) ∧ Lease.InTime 6 now after ∧
            Lease.last now after = 2 := by
  have seen : (reach { persistent := true } .plain beatenRun).lastSeen (Scalar.str "w").key =
      some 2 := by decide +kernel
  refine ⟨seen, (lastSeen_eq_some_iff ?_).mp seen⟩
  simp only [beatenRun, List.mem_cons, List.not_mem_nil, or_false]
  rintro event (rfl | rfl | rfl | rfl) pick <;> nofun

end DistroSync
