import Mathlib.Data.List.Nodup
import Mathlib.Tactic.Common

/-! Processes that come and go while their numbers are used again. A process
keeps its number and its start until it is reaped, and no pair of the two
returns; the serial is the process itself, which no one can read. -/

namespace ProcessTable

structure Proc (κ χ : Type*) where
  serial : ℕ
  pid : ℕ
  start : κ
  exe : Option χ
  deriving DecidableEq

variable {κ χ : Type*}

def Proc.key (p : Proc κ χ) : ℕ × ℕ × κ := (p.serial, p.pid, p.start)

/-- The processes that are not reaped yet, and the keys of all that ever were. -/
structure Table (κ χ : Type*) where
  live : List (Proc κ χ)
  born : List (ℕ × ℕ × κ)
  pids : (live.map Proc.pid).Nodup
  known : ∀ p ∈ live, p.key ∈ born
  serials : (born.map Prod.fst).Nodup
  starts : (born.map Prod.snd).Nodup

def Table.holder (t : Table κ χ) (pid : ℕ) : Option (Proc κ χ) := t.live.find? (·.pid = pid)

def Table.find (t : Table κ χ) (serial : ℕ) : Option (Proc κ χ) := t.live.find? (·.serial = serial)

def Table.Alive (t : Table κ χ) (serial : ℕ) : Prop := ∃ p ∈ t.live, p.serial = serial

theorem nodup_reap (t : Table κ χ) (serial : ℕ) :
    ((t.live.filter (·.serial ≠ serial)).map Proc.pid).Nodup :=
  t.pids.sublist (List.filter_sublist.map _)

def Table.reap (t : Table κ χ) (serial : ℕ) : Table κ χ where
  live := t.live.filter (·.serial ≠ serial)
  born := t.born
  pids := nodup_reap t serial
  known := fun p hp => t.known p (List.mem_filter.mp hp).1
  serials := t.serials
  starts := t.starts

def Proc.become (p : Proc κ χ) (serial : ℕ) (exe : Option χ) : Proc κ χ :=
  if p.serial = serial then { p with exe := exe } else p

theorem Proc.become_key (p : Proc κ χ) (serial : ℕ) (exe : Option χ) : (p.become serial exe).key = p.key := by
  rw [Proc.become]
  split <;> rfl

theorem Proc.become_serial (p : Proc κ χ) (serial : ℕ) (exe : Option χ) :
    (p.become serial exe).serial = p.serial := congrArg Prod.fst (p.become_key serial exe)

theorem pids_exec (t : Table κ χ) (serial : ℕ) (exe : Option χ) :
    ((t.live.map (·.become serial exe)).map Proc.pid).Nodup := by
  have hpids : ∀ p : Proc κ χ, (p.become serial exe).pid = p.pid := by
    intro p
    exact congrArg (fun k => k.2.1) (p.become_key serial exe)
  rw [List.map_map, show Proc.pid ∘ (·.become serial exe) = (Proc.pid : Proc κ χ → ℕ) from funext hpids]
  exact t.pids

theorem known_exec (t : Table κ χ) (serial : ℕ) (exe : Option χ) :
    ∀ p ∈ t.live.map (·.become serial exe), p.key ∈ t.born := by
  intro p hp
  obtain ⟨q, hq, rfl⟩ := List.mem_map.mp hp
  rw [Proc.become_key]
  exact t.known q hq

/-- The process runs another executable, or none that can be read. -/
def Table.exec (t : Table κ χ) (serial : ℕ) (exe : Option χ) : Table κ χ where
  live := t.live.map (·.become serial exe)
  born := t.born
  pids := pids_exec t serial exe
  known := known_exec t serial exe
  serials := t.serials
  starts := t.starts

/-- The process runs an executable whose path leads to it no longer, if it ran the one at `path`. -/
def Proc.lose [DecidableEq χ] (p : Proc κ χ) (path : χ) : Proc κ χ :=
  if p.exe = some path then { p with exe := none } else p

theorem Proc.lose_key [DecidableEq χ] (p : Proc κ χ) (path : χ) : (p.lose path).key = p.key := by
  rw [Proc.lose]
  split <;> rfl

theorem Proc.lose_serial [DecidableEq χ] (p : Proc κ χ) (path : χ) : (p.lose path).serial = p.serial :=
  congrArg Prod.fst (p.lose_key path)

theorem pids_unlink [DecidableEq χ] (t : Table κ χ) (path : χ) :
    ((t.live.map (·.lose path)).map Proc.pid).Nodup := by
  have hpids : ∀ p : Proc κ χ, (p.lose path).pid = p.pid := by
    intro p
    exact congrArg (fun k => k.2.1) (p.lose_key path)
  rw [List.map_map, show Proc.pid ∘ (·.lose path) = (Proc.pid : Proc κ χ → ℕ) from funext hpids]
  exact t.pids

theorem known_unlink [DecidableEq χ] (t : Table κ χ) (path : χ) :
    ∀ p ∈ t.live.map (·.lose path), p.key ∈ t.born := by
  intro p hp
  obtain ⟨q, hq, rfl⟩ := List.mem_map.mp hp
  rw [Proc.lose_key]
  exact t.known q hq

/-- The file at the path is removed or replaced. -/
def Table.unlink [DecidableEq χ] (t : Table κ χ) (path : χ) : Table κ χ where
  live := t.live.map (·.lose path)
  born := t.born
  pids := pids_unlink t path
  known := known_unlink t path
  serials := t.serials
  starts := t.starts

structure Fresh (t : Table κ χ) (p : Proc κ χ) : Prop where
  serial : p.serial ∉ t.born.map Prod.fst
  start : (p.pid, p.start) ∉ t.born.map Prod.snd
  pid : p.pid ∉ t.live.map Proc.pid

instance decidableFresh [DecidableEq κ] (t : Table κ χ) (p : Proc κ χ) : Decidable (Fresh t p) :=
  decidable_of_iff (p.serial ∉ t.born.map Prod.fst ∧ (p.pid, p.start) ∉ t.born.map Prod.snd ∧
    p.pid ∉ t.live.map Proc.pid) ⟨fun h => ⟨h.1, h.2.1, h.2.2⟩, fun h => ⟨h.serial, h.start, h.pid⟩⟩

theorem known_spawn (t : Table κ χ) (p : Proc κ χ) : ∀ q ∈ p :: t.live, q.key ∈ p.key :: t.born := by
  intro q hq
  rcases List.mem_cons.mp hq with rfl | hq
  · exact List.mem_cons_self
  · exact List.mem_cons_of_mem _ (t.known q hq)

def Table.spawn (t : Table κ χ) (p : Proc κ χ) (h : Fresh t p) : Table κ χ where
  live := p :: t.live
  born := p.key :: t.born
  pids := List.nodup_cons.mpr ⟨h.pid, t.pids⟩
  known := known_spawn t p
  serials := List.nodup_cons.mpr ⟨h.serial, t.serials⟩
  starts := List.nodup_cons.mpr ⟨h.start, t.starts⟩

/-- What the time between two tables can have done: no one who was known has come back. -/
structure Later (t t' : Table κ χ) : Prop where
  born : ∀ k ∈ t.born, k ∈ t'.born
  alive : ∀ k ∈ t.born, t'.Alive k.1 → t.Alive k.1

section

variable {t : Table κ χ} {p q : Proc κ χ} {pid serial a b : ℕ} {k k' : ℕ × κ}

theorem later_reap (t : Table κ χ) (serial : ℕ) : Later t (t.reap serial) := by
  refine ⟨fun _ hk => hk, ?_⟩
  rintro k _ ⟨p, hp, hserial⟩
  exact ⟨p, (List.mem_filter.mp hp).1, hserial⟩

theorem later_exec (t : Table κ χ) (serial : ℕ) (exe : Option χ) : Later t (t.exec serial exe) := by
  refine ⟨fun _ hk => hk, ?_⟩
  rintro k _ ⟨p, hp, hserial⟩
  obtain ⟨q, hq, rfl⟩ := List.mem_map.mp hp
  rw [Proc.become_serial] at hserial
  exact ⟨q, hq, hserial⟩

theorem later_unlink [DecidableEq χ] (t : Table κ χ) (path : χ) : Later t (t.unlink path) := by
  refine ⟨fun _ hk => hk, ?_⟩
  rintro k _ ⟨p, hp, hserial⟩
  obtain ⟨q, hq, rfl⟩ := List.mem_map.mp hp
  rw [Proc.lose_serial] at hserial
  exact ⟨q, hq, hserial⟩

theorem later_spawn (h : Fresh t p) : Later t (t.spawn p h) := by
  refine ⟨fun _ hk => List.mem_cons_of_mem _ hk, ?_⟩
  rintro k hk ⟨q, hq, hserial⟩
  rcases List.mem_cons.mp hq with rfl | hq
  · exact absurd (List.mem_map.mpr ⟨k, hk, hserial.symm⟩) h.serial
  · exact ⟨q, hq, hserial⟩

theorem holder_some (h : t.holder pid = some p) : p ∈ t.live ∧ p.pid = pid := by
  have hpid := List.find?_some h
  exact ⟨List.mem_of_find?_eq_some h, by simpa using hpid⟩

theorem find_some (h : t.find serial = some p) : p ∈ t.live ∧ p.serial = serial := by
  have hserial := List.find?_some h
  exact ⟨List.mem_of_find?_eq_some h, by simpa using hserial⟩

theorem alive_find (h : t.Alive serial) : ∃ p, t.find serial = some p := by
  obtain ⟨p, hp, hserial⟩ := h
  apply Option.isSome_iff_exists.mp
  exact List.find?_isSome.mpr ⟨p, hp, by simpa using hserial⟩

/-- One number, one process at a time. -/
theorem eq_of_pid (hp : p ∈ t.live) (hq : q ∈ t.live) (h : p.pid = q.pid) : p = q :=
  List.inj_on_of_nodup_map t.pids hp hq h

theorem holder_of_live (hp : p ∈ t.live) : t.holder p.pid = some p := by
  obtain ⟨q, hq⟩ : ∃ q, t.holder p.pid = some q := by
    apply Option.isSome_iff_exists.mp
    exact List.find?_isSome.mpr ⟨p, hp, by simp⟩
  obtain ⟨hlive, hpid⟩ := holder_some hq
  rw [hq, eq_of_pid hlive hp hpid]

theorem serial_of_start (ha : (a, k) ∈ t.born) (hb : (b, k) ∈ t.born) : a = b :=
  congrArg Prod.fst (List.inj_on_of_nodup_map t.starts ha hb rfl)

theorem start_of_serial (h : (a, k) ∈ t.born) (h' : (a, k') ∈ t.born) : k = k' :=
  congrArg Prod.snd (List.inj_on_of_nodup_map t.serials h h' rfl)

end

end ProcessTable
