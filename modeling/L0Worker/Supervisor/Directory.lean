import L0Worker.Supervisor.Api
import Mathlib.Data.Finset.Card

/-!
# The directory

What the API is for, seen by its clients: a directory of workers.  It lists every worker with
its port, a spawn adds a worker under a new id on a port that no other worker has, and a
restart puts a worker with a new id in the place of the old one, on its port.  Nothing else
changes the directory.  How a worker does, which a status tells, is no part of it.

What clients may rely on follows from the directory alone: an id that is gone stays gone
(`Served.denies`), an id has one port for good, and how many workers a listing has
(`Served.card`).  A directory may be lossy, that is, forget workers on its own.
-/

namespace L0Worker.Supervisor

/-! ## The abstract directory -/

/-- The id and the port of a status. -/
def PoolWorkerStatus.address (s : PoolWorkerStatus) : WorkerId × Port := (s.id, s.port)

/-- A directory of workers. -/
@[ext] structure Directory where
  /-- The workers there are. -/
  entries : Finset (WorkerId × Port)
  /-- The workers there ever were. -/
  given : Finset (WorkerId × Port)
  entries_subset : entries ⊆ given
  /-- An id is given with one port. -/
  onePort : ∀ {id p q}, (id, p) ∈ given → (id, q) ∈ given → p = q

namespace Directory

/-- There is a worker with this id. -/
def Has (d : Directory) (id : WorkerId) : Prop := ∃ port, (id, port) ∈ d.entries

/-- There never was a worker with this id. -/
def Fresh (d : Directory) (id : WorkerId) : Prop := ∀ port, (id, port) ∉ d.given

/-- There was a worker with this id, and there is none now. -/
def Gone (d : Directory) (id : WorkerId) : Prop := ¬ d.Has id ∧ ¬ d.Fresh id

/-- A new worker. -/
def add (d : Directory) (id : WorkerId) (port : Port) (hf : d.Fresh id) : Directory where
  entries := insert (id, port) d.entries
  given := insert (id, port) d.given
  entries_subset := Finset.insert_subset_insert _ d.entries_subset
  onePort := by
    intro id' p q hp hq
    rw [Finset.mem_insert, Prod.mk.injEq] at hp hq
    obtain ⟨rfl, rfl⟩ | hp := hp
    · obtain ⟨-, rfl⟩ | hq := hq
      · rfl
      · exact absurd hq (hf q)
    · obtain ⟨rfl, rfl⟩ | hq := hq
      · exact absurd hp (hf p)
      · exact d.onePort hp hq

/-- A worker less. -/
def remove (d : Directory) (id : WorkerId) : Directory where
  entries := d.entries.filter fun address => address.1 ≠ id
  given := d.given
  entries_subset := (Finset.filter_subset _ _).trans d.entries_subset
  onePort := d.onePort

/-- What a request is answered, and the directory afterwards. -/
inductive Answers (d : Directory) : ApiRequest → ApiResponse → Directory → Prop where
  | listed {workers : List PoolWorkerStatus} (hnodup : (workers.map PoolWorkerStatus.id).Nodup)
      (hentries : ∀ address, address ∈ workers.map PoolWorkerStatus.address ↔
        address ∈ d.entries) :
      Answers d .listWorkers
        ⟨200, .workers workers (workers.countP fun s => decide (s.state = "healthy"))
          workers.length⟩ d
  | found {status : PoolWorkerStatus} (h : status.address ∈ d.entries) :
      Answers d (.getWorker status.id) ⟨200, .worker status⟩ d
  | missing {request : ApiRequest} {id : WorkerId} (hid : request.workerId? = some id)
      (h : ¬ d.Has id) :
      Answers d request ⟨404, .error ("Worker " ++ id ++ " not found")⟩ d
  | spawned {id : WorkerId} {port : Port} (hf : d.Fresh id)
      (hport : ∀ id', (id', port) ∉ d.entries) :
      Answers d .spawnWorker ⟨201, .spawned id port⟩ (d.add id port hf)
  | spawnFailed (error : String) : Answers d .spawnWorker ⟨500, .error error⟩ d
  | drained {id : WorkerId} (h : d.Has id) :
      Answers d (.drainWorker id)
        ⟨200, .operation true ("Worker " ++ id ++ " drain initiated")⟩ d
  | killed {id : WorkerId} (h : d.Has id) :
      Answers d (.killWorker id) ⟨200, .operation true ("Worker " ++ id ++ " killed")⟩ d
  | restarted {id newId : WorkerId} {port : Port} (h : (id, port) ∈ d.entries)
      (hf : d.Fresh newId) :
      Answers d (.restartWorker id) ⟨200, .spawned newId port⟩ ((d.add newId port hf).remove id)
  | restartFailed {id : WorkerId} (h : d.Has id) (error : String) :
      Answers d (.restartWorker id)
        ⟨500, .error ("Failed to spawn replacement worker: " ++ error)⟩ d

/-- Some workers are forgotten. -/
structure Forgets (d d' : Directory) : Prop where
  entries : d'.entries ⊆ d.entries
  given : d'.given = d.given

/-- A sequence of answers.  A directory that is lossy may forget workers in between. -/
inductive Served (lossy : Prop) :
    Directory → List (ApiRequest × ApiResponse) → Directory → Prop where
  | nil (d : Directory) : Served lossy d [] d
  | answered {d d' d'' : Directory} {request : ApiRequest} {response : ApiResponse}
      {rest : List (ApiRequest × ApiResponse)} (h : d.Answers request response d')
      (hrest : Served lossy d' rest d'') : Served lossy d ((request, response) :: rest) d''
  | forgotten {d d' d'' : Directory} {rest : List (ApiRequest × ApiResponse)} (hlossy : lossy)
      (h : d.Forgets d') (hrest : Served lossy d' rest d'') : Served lossy d rest d''

variable {lossy : Prop} {d d' d'' : Directory} {request : ApiRequest} {response : ApiResponse}
variable {answers answers' : List (ApiRequest × ApiResponse)} {id : WorkerId}

namespace Served

theorem append (h : Served lossy d answers d') (h' : Served lossy d' answers' d'') :
    Served lossy d (answers ++ answers') d'' := by
  induction h with
  | nil d => exact h'
  | answered hanswer _ ih => exact .answered hanswer (ih h')
  | forgotten hlossy hforgets _ ih => exact .forgotten hlossy hforgets (ih h')

/-- Answers split at any point. -/
theorem split (h : Served lossy d (answers ++ answers') d'') :
    ∃ d', Served lossy d answers d' ∧ Served lossy d' answers' d'' := by
  generalize hall : answers ++ answers' = all at h
  induction h generalizing answers with
  | nil d =>
      obtain ⟨rfl, rfl⟩ := List.append_eq_nil_iff.mp hall
      exact ⟨d, .nil d, .nil d⟩
  | @answered d d₁ d₂ request response rest hanswer hrest ih =>
      cases answers with
      | nil =>
          obtain rfl := hall
          exact ⟨d, .nil d, .answered hanswer hrest⟩
      | cons answer answers =>
          obtain ⟨rfl, htail⟩ := List.cons.inj hall
          obtain ⟨d', h, h'⟩ := ih htail
          exact ⟨d', .answered hanswer h, h'⟩
  | forgotten hlossy hforgets _ ih =>
      obtain ⟨d', h, h'⟩ := ih hall
      exact ⟨d', .forgotten hlossy hforgets h, h'⟩

end Served

/-! ## What clients may rely on -/

/-- The workers an answer tells about. -/
def addresses : ApiResponse → List (WorkerId × Port)
  | ⟨_, .workers workers _ _⟩ => workers.map PoolWorkerStatus.address
  | ⟨_, .worker status⟩ => [status.address]
  | ⟨_, .spawned id port⟩ => [(id, port)]
  | ⟨_, .operation _ _⟩ | ⟨_, .error _⟩ => []

/-- The answer says that a worker was created. -/
def created (answer : ApiRequest × ApiResponse) : Bool := decide (answer.2.status = 201)

theorem Answers.given_subset (h : d.Answers request response d') : d.given ⊆ d'.given := by
  cases h with
  | spawned hf hport => exact Finset.subset_insert _ _
  | restarted h hf => exact Finset.subset_insert _ _
  | _ => exact Finset.Subset.refl _

/-- What an answer tells about was given. -/
theorem Answers.addresses_given (h : d.Answers request response d') :
    ∀ address ∈ addresses response, address ∈ d'.given := by
  cases h with
  | listed hnodup hentries => exact fun address ha => d.entries_subset ((hentries address).mp ha)
  | found h => exact List.forall_mem_singleton.mpr (d.entries_subset h)
  | spawned hf hport => exact List.forall_mem_singleton.mpr (Finset.mem_insert_self _ _)
  | restarted h hf => exact List.forall_mem_singleton.mpr (Finset.mem_insert_self _ _)
  | _ => exact List.forall_mem_nil _

theorem Served.given_subset (h : Served lossy d answers d') : d.given ⊆ d'.given := by
  induction h with
  | nil d => exact Finset.Subset.refl _
  | answered hanswer _ ih => exact hanswer.given_subset.trans ih
  | forgotten _ hforgets _ ih => exact hforgets.given ▸ ih

theorem Served.addresses_given (h : Served lossy d answers d') :
    ∀ answer ∈ answers, ∀ address ∈ addresses answer.2, address ∈ d'.given := by
  induction h with
  | nil d => exact List.forall_mem_nil _
  | answered hanswer hrest ih =>
      exact List.forall_mem_cons.mpr
        ⟨fun address ha => hrest.given_subset (hanswer.addresses_given address ha), ih⟩
  | forgotten _ _ _ ih => exact ih

/-- The answer does not show the worker, and a request that names it is told that it is missing. -/
def Denies (id : WorkerId) (request : ApiRequest) (response : ApiResponse) : Prop :=
  (request.workerId? = some id → response.status = 404) ∧
    id ∉ (addresses response).map Prod.fst

theorem Answers.denies (h : d.Answers request response d') (hid : d.Gone id) :
    Denies id request response ∧ d'.Gone id := by
  obtain ⟨hhas, hfresh⟩ := hid
  have hentry : ∀ port, (id, port) ∉ d.entries := fun port hp => hhas ⟨port, hp⟩
  have hnot : ∀ {l : List (WorkerId × Port)}, (∀ address ∈ l, address.1 ≠ id) →
      id ∉ l.map Prod.fst := by
    intro l hl hmem
    obtain ⟨address, ha, rfl⟩ := List.mem_map.mp hmem
    exact hl address ha rfl
  have hne : ∀ {newId : WorkerId}, d.Fresh newId → newId ≠ id := by
    rintro newId hf rfl
    exact hfresh hf
  have hold : ∀ {address : WorkerId × Port}, address ∈ d.entries → address.1 ≠ id := by
    rintro ⟨id', port⟩ ha rfl
    exact hentry port ha
  cases h with
  | @listed workers hnodup hentries =>
      exact ⟨⟨nofun, hnot fun address ha => hold ((hentries address).mp ha)⟩, hhas, hfresh⟩
  | @found status h =>
      refine ⟨⟨fun hname => ?_, hnot (List.forall_mem_singleton.mpr (hold h))⟩, hhas, hfresh⟩
      exact absurd (Option.some.inj hname) (hold h)
  | missing _ h => exact ⟨⟨fun _ => rfl, List.not_mem_nil⟩, hhas, hfresh⟩
  | @spawned newId port hf hport =>
      refine ⟨⟨nofun, hnot (List.forall_mem_singleton.mpr (hne hf))⟩, ?_, ?_⟩
      · rintro ⟨port', hp⟩
        obtain heq | hp := Finset.mem_insert.mp hp
        · exact hne hf (congrArg Prod.fst heq).symm
        · exact hentry port' hp
      · exact fun hf' => hfresh fun port' hp => hf' port' (Finset.mem_insert_of_mem hp)
  | spawnFailed error => exact ⟨⟨nofun, List.not_mem_nil⟩, hhas, hfresh⟩
  | @drained id' h =>
      refine ⟨⟨?_, List.not_mem_nil⟩, hhas, hfresh⟩
      rintro ⟨⟩
      exact absurd h hhas
  | @killed id' h =>
      refine ⟨⟨?_, List.not_mem_nil⟩, hhas, hfresh⟩
      rintro ⟨⟩
      exact absurd h hhas
  | @restarted id' newId port h hf =>
      refine ⟨⟨?_, hnot (List.forall_mem_singleton.mpr (hne hf))⟩, ?_, ?_⟩
      · rintro ⟨⟩
        exact absurd h (hentry port)
      · rintro ⟨port', hp⟩
        obtain heq | hp := Finset.mem_insert.mp (Finset.mem_filter.mp hp).1
        · exact hne hf (congrArg Prod.fst heq).symm
        · exact hentry port' hp
      · exact fun hf' => hfresh fun port' hp => hf' port' (Finset.mem_insert_of_mem hp)
  | @restartFailed id' h error =>
      refine ⟨⟨?_, List.not_mem_nil⟩, hhas, hfresh⟩
      rintro ⟨⟩
      exact absurd h hhas

/-- An id that is gone stays gone. -/
theorem Served.denies (h : Served lossy d answers d') (hid : d.Gone id) :
    ∀ answer ∈ answers, Denies id answer.1 answer.2 := by
  induction h with
  | nil d => exact List.forall_mem_nil _
  | answered hanswer _ ih =>
      obtain ⟨hdenies, hgone⟩ := hanswer.denies hid
      exact List.forall_mem_cons.mpr ⟨hdenies, ih hgone⟩
  | @forgotten d d₁ d₂ rest _ hforgets _ ih =>
      obtain ⟨hhas, hfresh⟩ := hid
      refine ih ⟨?_, ?_⟩
      · rintro ⟨port, hp⟩
        exact hhas ⟨port, hforgets.entries hp⟩
      · intro hf
        exact hfresh fun port hp => hf port (hforgets.given ▸ hp)

/-- Once a request is told that a worker is missing that was there before, every later one
is. -/
theorem Served.denies_after_missing {all : List (ApiRequest × ApiResponse)}
    (h : Served lossy d all d') (hall : all = (request, response) :: answers)
    (hname : request.workerId? = some id) (hmissing : response.status = 404)
    (hid : ¬ d.Fresh id) : ∀ answer ∈ answers, Denies id answer.1 answer.2 := by
  induction h with
  | nil d => cases hall
  | answered hanswer hrest ih =>
      cases hall
      cases hanswer with
      | missing hname' hhas =>
          obtain rfl := Option.some.inj (hname'.symm.trans hname)
          exact hrest.denies ⟨hhas, hid⟩
      | _ => cases hmissing
  | @forgotten d d₁ d₂ rest _ hforgets _ ih =>
      exact ih hall fun hf => hid fun port hp => hf port (hforgets.given ▸ hp)

/-- A directory that forgets nothing grows by the workers that were created. -/
theorem Answers.card (h : d.Answers request response d') :
    d'.entries.card = d.entries.card + if created (request, response) then 1 else 0 := by
  cases h with
  | spawned hf hport =>
      exact Finset.card_insert_of_notMem fun hp => hf _ (d.entries_subset hp)
  | @restarted id newId port h hf =>
      have hne : newId ≠ id := by
        rintro rfl
        exact hf port (d.entries_subset h)
      have hremoved : ((d.add newId port hf).remove id).entries =
          insert (newId, port) (d.entries.erase (id, port)) := by
        ext ⟨id', port'⟩
        simp only [remove, add, Finset.mem_filter, Finset.mem_insert, Finset.mem_erase,
          Prod.mk.injEq, ne_eq]
        constructor
        · rintro ⟨⟨rfl, rfl⟩ | hp, hid⟩
          · exact .inl ⟨rfl, rfl⟩
          · exact .inr ⟨fun heq => hid heq.1, hp⟩
        · rintro (⟨rfl, rfl⟩ | ⟨hid, hp⟩)
          · exact ⟨.inl ⟨rfl, rfl⟩, hne⟩
          · refine ⟨.inr hp, ?_⟩
            rintro rfl
            exact hid ⟨rfl, d.onePort (d.entries_subset hp) (d.entries_subset h)⟩
      have hnew : (newId, port) ∉ d.entries.erase (id, port) := fun hp =>
        hf port (d.entries_subset (Finset.mem_of_mem_erase hp))
      rw [hremoved, Finset.card_insert_of_notMem hnew, Finset.card_erase_add_one h]
      rfl
  | _ => rfl

theorem Served.card (h : Served False d answers d') :
    d'.entries.card = d.entries.card + answers.countP created := by
  induction h with
  | nil d => rfl
  | answered hanswer _ ih =>
      rw [ih, hanswer.card, List.countP_cons]
      omega
  | forgotten hlossy _ _ _ => exact hlossy.elim

/-- A listing has a status for each worker. -/
theorem Answers.listed_length {workers : List PoolWorkerStatus} {healthy total : Nat}
    (h : d.Answers .listWorkers ⟨200, .workers workers healthy total⟩ d') :
    total = d.entries.card := by
  cases h with
  | listed hnodup hentries =>
      have hset : d.entries = (workers.map PoolWorkerStatus.address).toFinset := by
        ext address
        rw [List.mem_toFinset, hentries]
      have hnodup' : (workers.map PoolWorkerStatus.address).Nodup :=
        List.Nodup.of_map Prod.fst (by rw [List.map_map]; exact hnodup)
      rw [hset, List.toFinset_card_of_nodup hnodup', List.length_map]

end Directory

end L0Worker.Supervisor
