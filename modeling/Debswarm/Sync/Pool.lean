import Mathlib.Data.List.Perm.Basic

/-!
# Pools of workers

Workers take jobs from a queue that nobody adds to, and send a report for each job they took to a
channel.  A worker is done when it finds the queue empty; it may also quit earlier, with the
report for the job it has.  When all workers are done, the channel is closed.

However the workers interleave, a job that was given to the pool is in the queue, with one of the
workers, reported in the channel or was received from it, and it is in one of these places only.
-/

namespace Debswarm.Sync

open List

universe u v w

/-- What a worker is doing: it is about to take a job, it has one, or it is done. -/
inductive Worker (τ : Type u) (ω : Type v)
  | ready
  | busy (job : τ) (work : ω)
  | done
  deriving DecidableEq, Repr

/-- What a worker with a job does next. -/
inductive Action (ω : Type v) (ρ : Type w)
  | goOn (work : ω)
  | report (report : ρ)
  | quit (report : ρ)
  deriving DecidableEq, Repr

/-- The queue, the workers, and the channel for their reports. -/
structure Pool (τ : Type u) (ω : Type v) (ρ : Type w) where
  pending : List τ
  workers : List (Worker τ ω)
  results : List (τ × ρ)
  closed : Bool
  deriving DecidableEq, Repr

variable {τ : Type u} {ω : Type v} {ρ : Type w}

def Worker.job? : Worker τ ω → Option τ
  | .busy job _ => some job
  | _ => none

def Worker.isDone : Worker τ ω → Bool
  | .done => true
  | _ => false

namespace Pool

/-- A pool of workers that have not begun. -/
def start (jobs : List τ) (count : Nat) : Pool τ ω ρ :=
  ⟨jobs, replicate count .ready, [], false⟩

/-- A worker takes a job, or is done if there is none. -/
def take (id : Nat) (work : ω) (pool : Pool τ ω ρ) : Pool τ ω ρ :=
  match pool.workers[id]?, pool.pending with
  | some .ready, job :: rest =>
    { pool with pending := rest, workers := pool.workers.set id (.busy job work) }
  | some .ready, [] => { pool with workers := pool.workers.set id .done }
  | _, _ => pool

/-- A worker goes on with its job, reports it, or reports it and quits. -/
def act (id : Nat) (action : τ → ω → Action ω ρ) (pool : Pool τ ω ρ) : Pool τ ω ρ :=
  match pool.workers[id]? with
  | some (.busy job work) =>
    match action job work with
    | .goOn further => { pool with workers := pool.workers.set id (.busy job further) }
    | .report report =>
      { pool with
        workers := pool.workers.set id .ready
        results := pool.results ++ [(job, report)] }
    | .quit report =>
      { pool with
        workers := pool.workers.set id .done
        results := pool.results ++ [(job, report)] }
  | _ => pool

/-- Close the channel once all workers are done. -/
def close (pool : Pool τ ω ρ) : Pool τ ω ρ :=
  if pool.workers.all Worker.isDone then { pool with closed := true } else pool

def receive? (pool : Pool τ ω ρ) : Option ((τ × ρ) × Pool τ ω ρ) :=
  match pool.results with
  | [] => none
  | result :: rest => some (result, { pool with results := rest })

/-- The channel is closed and has been drained. -/
def isDrained (pool : Pool τ ω ρ) : Bool :=
  pool.closed && pool.results.isEmpty

/-- The jobs that the workers have. -/
def held (pool : Pool τ ω ρ) : List τ :=
  pool.workers.filterMap Worker.job?

/-- The jobs of which no report was received. -/
def outstanding (pool : Pool τ ω ρ) : List τ :=
  pool.results.map Prod.fst ++ (pool.held ++ pool.pending)

/-! ## The turns of the workers -/

/-- A worker takes a job, keeps the one it has, or sends a `good` report of it. It is done only if
the queue is empty or a report of it `quits`. -/
inductive Turn (good : τ → ρ → Prop) (quits : ρ → Prop) (pool : Pool τ ω ρ) : Pool τ ω ρ → Prop
  | stays : Turn good quits pool pool
  | changes (id : Nat) (was now : Worker τ ω) (rest : List τ) (sent : List (τ × ρ))
      (found : pool.workers[id]? = some was) (notDone : was.isDone = false)
      (jobs : was.job?.toList ++ pool.pending = sent.map Prod.fst ++ (now.job?.toList ++ rest))
      (shrinks : rest <:+ pool.pending) (isGood : ∀ result ∈ sent, good result.1 result.2)
      (excuse : now.isDone = true → rest = [] ∨ ∃ result ∈ sent, quits result.2) :
      Turn good quits pool
        { pool with
          pending := rest
          workers := pool.workers.set id now
          results := pool.results ++ sent }

variable {good : τ → ρ → Prop} {quits : ρ → Prop} {pool after : Pool τ ω ρ} {id : Nat}

theorem Turn.silent {was now : Worker τ ω} {rest : List τ} (found : pool.workers[id]? = some was)
    (notDone : was.isDone = false)
    (jobs : was.job?.toList ++ pool.pending = now.job?.toList ++ rest)
    (shrinks : rest <:+ pool.pending) (excuse : now.isDone = true → rest = []) :
    Turn good quits pool { pool with pending := rest, workers := pool.workers.set id now } := by
  have turn := @Turn.changes _ _ _ good quits pool id was now rest [] found notDone jobs shrinks
    nofun fun isDone => .inl (excuse isDone)
  rwa [append_nil] at turn

theorem turn_take (id : Nat) (work : ω) : Turn good quits pool (pool.take id work) := by
  unfold take
  split
  · rename_i job rest ready first
    exact .silent ready rfl first (first ▸ suffix_cons job rest) nofun
  · rename_i ready none
    have turn := @Turn.silent _ _ _ good quits pool id .ready .done [] ready rfl none
      nil_suffix fun _ => rfl
    rwa [← none] at turn
  · exact .stays

theorem turn_act {action : τ → ω → Action ω ρ}
    (reports : ∀ job work report, action job work = .report report → good job report)
    (leaves : ∀ job work report, action job work = .quit report → good job report ∧ quits report) :
    Turn good quits pool (pool.act id action) := by
  unfold act
  split
  · rename_i job work busy
    cases acts : action job work with
    | goOn further => exact .silent busy rfl rfl suffix_rfl nofun
    | report report =>
      exact .changes id _ .ready _ [(job, report)] busy rfl rfl suffix_rfl
        (by simpa using reports job work report acts) nofun
    | quit report =>
      obtain ⟨isGood, isQuit⟩ := leaves job work report acts
      exact .changes id _ .done _ [(job, report)] busy rfl rfl suffix_rfl
        (by simpa using isGood) fun _ => .inr ⟨_, mem_singleton_self _, isQuit⟩
  · exact .stays

/-! ## Where the jobs are -/

@[simp]
theorem filterMap_job?_cons (worker : Worker τ ω) (workers : List (Worker τ ω)) :
    (worker :: workers).filterMap Worker.job? =
      worker.job?.toList ++ workers.filterMap Worker.job? := by
  cases worker <;> rfl

/-- The jobs of the workers, when one worker changes. -/
theorem perm_held_set {was : Worker τ ω} (found : pool.workers[id]? = some was) (now : Worker τ ω) :
    (was.job?.toList ++ (pool.workers.set id now).filterMap Worker.job?).Perm
      (now.job?.toList ++ pool.held) := by
  obtain ⟨inside, isWas⟩ := List.getElem?_eq_some_iff.mp found
  have after := (List.set_perm_cons_eraseIdx inside now).filterMap Worker.job?
  have before := (List.getElem_cons_eraseIdx_perm inside).filterMap Worker.job?
  rw [isWas, filterMap_job?_cons] at before
  rw [filterMap_job?_cons] at after
  exact (after.append_left _).trans
    ((List.perm_append_comm_assoc _ _ _).trans (before.append_left _))

/-- A turn moves jobs about, but loses none and adds none. -/
theorem Turn.perm_outstanding (turn : Turn good quits pool after) :
    after.outstanding.Perm pool.outstanding := by
  cases turn with
  | stays => exact .refl _
  | changes id was now rest sent found notDone jobs =>
    -- How often a job is in each place adds up to the same.
    classical
    rw [perm_iff_count]
    intro job
    have held := (perm_held_set found now).count_eq job
    have moved := congrArg (count job) jobs
    simp only [outstanding, Pool.held, map_append, count_append] at held moved ⊢
    omega

@[simp]
theorem outstanding_start (jobs : List τ) (count : Nat) :
    (start jobs count : Pool τ ω ρ).outstanding = jobs := by
  have nobody : (replicate count (.ready : Worker τ ω)).filterMap Worker.job? = [] :=
    filterMap_replicate_of_none rfl
  simp [outstanding, held, start, nobody]

/-! ## What a pool owes -/

/-- A pool that was given the jobs `all` and whose reports `heard` were received. -/
structure Serves (good : τ → ρ → Prop) (quits : ρ → Prop) (all : List τ)
    (heard : List (τ × ρ)) (pool : Pool τ ω ρ) : Prop where
  accounted : (heard.map Prod.fst ++ pool.outstanding).Perm all
  reported : ∀ result ∈ heard ++ pool.results, good result.1 result.2
  staffed : pool.workers ≠ []
  /-- A worker that is done has found the queue empty, or it quit. -/
  excused : ∀ worker ∈ pool.workers, worker.isDone = true →
    pool.pending = [] ∨ ∃ result ∈ heard ++ pool.results, quits result.2
  finished : pool.closed = true → ∀ worker ∈ pool.workers, worker.isDone = true

variable {all : List τ} {heard : List (τ × ρ)}

theorem serves_start {count : Nat} (positive : 0 < count) :
    Serves good quits all [] (start all count : Pool τ ω ρ) where
  accounted := .of_eq (outstanding_start all count)
  reported := by simp [start]
  staffed := by simpa [start] using Nat.ne_of_gt positive
  excused := by simp [start, Worker.isDone]
  finished := by simp [start]

/-- The turns of the workers keep what a pool owes. -/
theorem Serves.turn (serves : Serves good quits all heard pool) (turn : Turn good quits pool after)
    : Serves good quits all heard after := by
  have accounted := turn.perm_outstanding
  cases turn with
  | stays => exact serves
  | changes id was now rest sent found notDone jobs shrinks isGood excuse =>
    refine ⟨(accounted.append_left _).trans serves.accounted, ?_, ?_, ?_, ?_⟩
    · intro result mem
      rw [← append_assoc] at mem
      exact (mem_append.mp mem).elim (serves.reported result) (isGood result)
    · rw [ne_eq, set_eq_nil_iff]
      exact serves.staffed
    · intro worker mem isDone
      rw [← append_assoc]
      rcases mem_or_eq_of_mem_set mem with old | rfl
      · rcases serves.excused worker old isDone with empty | ⟨result, mem, quit⟩
        · exact .inl (suffix_nil.mp (empty ▸ shrinks))
        · exact .inr ⟨result, mem_append_left _ mem, quit⟩
      · rcases excuse isDone with empty | ⟨result, mem, quit⟩
        · exact .inl empty
        · exact .inr ⟨result, mem_append_right _ mem, quit⟩
    · -- the channel is open while a worker is not done
      intro closed
      have isDone := serves.finished closed was (mem_of_getElem? found)
      rw [notDone] at isDone
      cases isDone

theorem Serves.close (serves : Serves good quits all heard pool) :
    Serves good quits all heard pool.close := by
  unfold Pool.close
  split
  · rename_i allDone
    exact { serves with finished := fun _ => all_eq_true.mp allDone }
  · exact serves

/-- The job of a report that is received is no longer outstanding. -/
theorem outstanding_of_receive? {result : τ × ρ} (received : pool.receive? = some (result, after)) :
    pool.results = result :: after.results ∧ pool.outstanding = result.1 :: after.outstanding ∧
      after.workers = pool.workers ∧ after.pending = pool.pending ∧
      after.closed = pool.closed := by
  unfold receive? at received
  split at received
  · cases received
  · rename_i rest results
    cases received
    exact ⟨results, by simp [outstanding, held, results], rfl, rfl, rfl⟩

/-- Receiving a report keeps what a pool owes. -/
theorem Serves.receive (serves : Serves good quits all heard pool) {result : τ × ρ}
    (received : pool.receive? = some (result, after)) :
    Serves good quits all (heard ++ [result]) after := by
  obtain ⟨results, outstanding, workers, pending, closed⟩ := outstanding_of_receive? received
  have same : heard ++ [result] ++ after.results = heard ++ pool.results := by
    rw [results, append_assoc, singleton_append]
  refine ⟨?_, same ▸ serves.reported, workers ▸ serves.staffed, ?_, ?_⟩
  · have accounted := serves.accounted
    rw [outstanding] at accounted
    rwa [map_append, append_assoc]
  · rw [workers, pending, same]
    exact serves.excused
  · rw [workers, closed]
    exact serves.finished

/-- Whoever has drained the channel has heard of every job, unless a worker quit. -/
theorem Serves.perm_of_isDrained (serves : Serves good quits all heard pool)
    (drained : pool.isDrained = true) (noQuit : ∀ result ∈ heard, ¬ quits result.2) :
    (heard.map Prod.fst).Perm all := by
  obtain ⟨closed, empty⟩ := Bool.and_eq_true_iff.mp drained
  have results : pool.results = [] := isEmpty_iff.mp empty
  have allDone := serves.finished closed
  have nobody : pool.held = [] := by
    refine filterMap_eq_nil_iff.mpr fun worker mem => ?_
    have isDone := allDone worker mem
    cases worker with
    | done => rfl
    | ready | busy job work => cases isDone
  obtain ⟨worker, mem⟩ := exists_mem_of_ne_nil _ serves.staffed
  have pending : pool.pending = [] := by
    rcases serves.excused worker mem (allDone worker mem) with none | ⟨result, heardOf, quit⟩
    · exact none
    · rw [results, append_nil] at heardOf
      exact absurd quit (noQuit result heardOf)
  have accounted := serves.accounted
  simpa [outstanding, results, nobody, pending] using accounted

end Pool

end Debswarm.Sync
