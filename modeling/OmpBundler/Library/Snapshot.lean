import OmpBundler.Library.Proc

/-!
A file that is kept in memory.

The file is read once. A change is made in memory first, and the file is then
replaced as a whole by what memory holds. So a change whose write is refused
stays in memory: `update_clean_iff` says when that happens. A program over
another state that does the same is related to `update` by `Related`.
-/

namespace Library

/-! ### Two programs side by side -/

namespace Proc

variable {σ τ ρ ε α α' β β' : Type}

/-- Two runs end alike: with the same answers left, and in states that `R`
relates if they return, or else in states that `S` relates. The values and
the texts of the errors do not matter. -/
def Alike (R S : σ → τ → Prop) :
    Exit ε α × σ × List ρ → Exit Unit β × τ × List ρ → Prop
  | (.returned _, s, rest), (.returned _, t, rest') => R s t ∧ rest = rest'
  | (.threw _, s, rest), (.threw _, t, rest') => S s t ∧ rest = rest'
  | (.died, s, rest), (.died, t, rest') => S s t ∧ rest = rest'
  | _, _ => False

/-- From states that `P` relates, and under every script, the two programs
end alike. -/
def Related (P R S : σ → τ → Prop) (p : Proc σ ρ ε α) (q : Proc τ ρ Unit β) : Prop :=
  ∀ s t script, P s t → Alike R S (p s script) (q t script)

variable {P M R S : σ → τ → Prop}

theorem Related.pure {a : α} {b : β} (ends : ∀ s t, P s t → R s t) :
    Related P R S (Pure.pure a : Proc σ ρ ε α) (Pure.pure b) :=
  fun s t _ related => ⟨ends s t related, rfl⟩

theorem Related.throw {e : ε} (ends : ∀ s t, P s t → S s t) :
    Related P R S (throw e : Proc σ ρ ε α) (throw () : Proc τ ρ Unit β) :=
  fun s t _ related => ⟨ends s t related, rfl⟩

theorem Related.modify {f : σ → σ} {g : τ → τ} (ends : ∀ s t, P s t → R (f s) (g t)) :
    Related P R S (modify f : Proc σ ρ ε Unit) (modify g) :=
  fun s t _ related => ⟨ends s t related, rfl⟩

theorem Related.ite {c d : Prop} [Decidable c] [Decidable d] {p p' : Proc σ ρ ε α}
    {q q' : Proc τ ρ Unit β} (same : c ↔ d) (yes : Related P R S p q)
    (no : Related P R S p' q') :
    Related P R S (if c then p else p') (if d then q else q') := by
  by_cases holds : c
  · rw [if_pos holds, if_pos (same.mp holds)]
    exact yes
  · rw [if_neg holds, if_neg (mt same.mpr holds)]
    exact no

theorem Related.bind {p : Proc σ ρ ε α} {q : Proc τ ρ Unit β} {f : α → Proc σ ρ ε α'}
    {g : β → Proc τ ρ Unit β'} (first : Related P M S p q)
    (second : ∀ a b, Related M R S (f a) (g b)) : Related P R S (p >>= f) (q >>= g) := by
  intro s t script related
  have ended := first s t script related
  show Alike R S (andThen (p s script) f) (andThen (q t script) g)
  generalize p s script = run at ended ⊢
  generalize q t script = run' at ended ⊢
  obtain ⟨exit, s', rest⟩ := run
  obtain ⟨exit', t', rest'⟩ := run'
  cases exit <;> cases exit' <;> try exact ended.elim
  case returned.returned a b =>
    obtain ⟨related', rfl⟩ := ended
    exact second a b s' t' rest related'
  case threw.threw => exact ended
  case died.died => exact ended

/-- The value that is returned does not matter. -/
theorem Related.discard {p : Proc σ ρ ε α} {q : Proc τ ρ Unit β} (related : Related P R S p q) :
    Related P R S (p >>= fun _ => Pure.pure ()) q := by
  intro s t script start
  have ended := related s t script start
  show Alike R S (andThen (p s script) fun _ => Pure.pure ()) _
  generalize p s script = run at ended ⊢
  generalize q t script = run' at ended ⊢
  obtain ⟨exit, s', rest⟩ := run
  obtain ⟨exit', t', rest'⟩ := run'
  cases exit <;> cases exit' <;> exact ended

theorem bind_returned {p : Proc σ ρ ε α} {f : α → Proc σ ρ ε β} {s t : σ}
    {script r : List ρ} {a : α} (ended : p s script = (.returned a, t, r)) :
    (p >>= f) s script = f a t r := by
  show andThen (p s script) f = _
  rw [ended]
  rfl

theorem bind_threw {p : Proc σ ρ ε α} {f : α → Proc σ ρ ε β} {s t : σ}
    {script r : List ρ} {e : ε} (ended : p s script = (.threw e, t, r)) :
    (p >>= f) s script = (.threw e, t, r) := by
  show andThen (p s script) f = _
  rw [ended]
  rfl

theorem bind_died {p : Proc σ ρ ε α} {f : α → Proc σ ρ ε β} {s t : σ}
    {script r : List ρ} (ended : p s script = (.died, t, r)) :
    (p >>= f) s script = (.died, t, r) := by
  show andThen (p s script) f = _
  rw [ended]
  rfl

/-- Both read their states. -/
theorem Related.get {f : σ → Proc σ ρ ε α} {g : τ → Proc τ ρ Unit β}
    (next : ∀ s t, P s t → Related (fun s' t' => s' = s ∧ t' = t) R S (f s) (g t)) :
    Related P R S (get >>= f) (get >>= g) :=
  fun s t script related => next s t related s t script ⟨rfl, rfl⟩

end Proc

/-! ### The file and its copy -/

/-- What the process holds in memory, and the file when there is one. -/
structure Snapshot (δ : Type) where
  memory : δ
  loaded : Bool
  file : Option δ

/-- The calls that reach the file, and what may be in it. -/
structure Medium (δ ρ : Type) where
  /-- What memory holds when there is no file. -/
  blank : δ
  /-- Whether the contents of a file are accepted. -/
  valid : δ → Bool
  /-- Whether an answer refuses its call. -/
  refuses : ρ → Bool

/-- What an operation wants to do with the contents. -/
inductive Change (δ : Type) where
  | refused
  | unchanged
  | changed (contents : δ)

namespace Snapshot

open Proc

variable {δ ρ : Type} (m : Medium δ ρ) (s : Snapshot δ)

/-- A call that may be refused. -/
def ask {σ : Type} : Proc σ ρ Unit Unit :=
  call >>= fun answer => if m.refuses answer then throw () else pure ()

@[simps]
def adopt (contents : δ) : Snapshot δ := { s with memory := contents, loaded := true }

@[simps]
def setMemory (contents : δ) : Snapshot δ := { s with memory := contents }

@[simps]
def install : Snapshot δ := { s with file := some s.memory }

/-- Read the file, once. -/
def load : Proc (Snapshot δ) ρ Unit Unit :=
  Proc.get >>= fun s =>
    if s.loaded then pure ()
    else
      ask m >>= fun _ =>
        match s.file with
        | none => modify (·.adopt m.blank)
        | some contents =>
            if m.valid contents then modify (·.adopt contents) else throw ()

/-- Replace the file by what memory holds: prepare a new file, rename it, and
flush the directory. -/
def write : Proc (Snapshot δ) ρ Unit Unit :=
  ask m >>= fun _ => ask m >>= fun _ => modify install >>= fun _ => ask m >>= fun _ => pure ()

/-- Change the contents in memory and write them. -/
def perform : Change δ → Proc (Snapshot δ) ρ Unit Unit
  | .refused => throw ()
  | .unchanged => pure ()
  | .changed contents => modify (·.setMemory contents) >>= fun _ => write m

/-- Change what the file has been read to hold. -/
def update (change : δ → Change δ) : Proc (Snapshot δ) ρ Unit Unit :=
  load m >>= fun _ => Proc.get >>= fun s => perform m (change s.memory)

/-! ### How an update ends -/

/-- The contents as an operation finds them: what is in memory, or what will
be read. -/
def contents : δ := if s.loaded then s.memory else s.file.getD m.blank

/-- The contents are those of the file. -/
def Synced : Prop := s.contents m = s.file.getD m.blank

/-- The answers that are left for the write. -/
def answersForWrite (script : List ρ) : List ρ := if s.loaded then script else script.tail

/-- The contents can be read. -/
def Readable (script : List ρ) : Prop :=
  s.loaded = true ∨
    (∃ answer rest, script = answer :: rest ∧ m.refuses answer = false) ∧
      ∀ contents ∈ s.file, m.valid contents = true

/-- One of the next three calls, as many as a write takes, is refused. -/
def Refused (script : List ρ) : Prop :=
  ∃ answer ∈ script.take 3, m.refuses answer = true

/-- The contents are changed in memory, and then the write is refused. -/
def Spoils (change : δ → Change δ) (script : List ρ) : Prop :=
  s.Readable m script ∧
    (∃ contents, change (s.contents m) = .changed contents ∧ contents ≠ s.contents m) ∧
    Refused m (s.answersForWrite script)

/-- An operation that rejects has left the contents as they were, one that
resolves has its effect in the file, and memory is what the file says. -/
def Clean {σ ε : Type} (view : σ → Snapshot δ) (recorded : δ → Prop) (s : σ) :
    Exit ε Unit × σ × List ρ → Prop
  | (.returned _, t, _) => (view t).Synced m ∧ recorded ((view t).file.getD m.blank)
  | (.threw _, t, _) => (view t).Synced m ∧ (view t).contents m = (view s).contents m
  | (.died, _, _) => True

variable {m s}

theorem synced_of_unloaded (unloaded : s.loaded = false) : s.Synced m := by
  rw [Synced, contents, unloaded]
  rfl

theorem synced_iff (loaded : s.loaded = true) :
    s.Synced m ↔ s.memory = s.file.getD m.blank := by
  rw [Synced, contents, if_pos loaded]

theorem contents_of_loaded (loaded : s.loaded = true) : s.contents m = s.memory := by
  rw [contents, if_pos loaded]

theorem ask_refused {σ : Type} {t : σ} {answer : ρ} {rest : List ρ}
    (refused : m.refuses answer = true) : ask m t (answer :: rest) = (.threw (), t, rest) := by
  show (if m.refuses answer then throw () else pure () : Proc σ ρ Unit Unit) t rest = _
  rw [if_pos refused]
  rfl

theorem ask_granted {σ : Type} {t : σ} {answer : ρ} {rest : List ρ}
    (granted : m.refuses answer = false) : ask m t (answer :: rest) = (.returned (), t, rest) := by
  show (if m.refuses answer then throw () else pure () : Proc σ ρ Unit Unit) t rest = _
  rw [if_neg (by rw [granted]; exact Bool.false_ne_true)]
  rfl

/-- A write that is refused has either left the file alone or replaced it. -/
theorem write_ends (script : List ρ) :
    Ends (fun _ t => t = s.install ∧ ¬Refused m script)
      (fun _ t => (t = s ∨ t = s.install) ∧ Refused m script)
      (fun _ => ¬Refused m script) (write m s script) := by
  rw [write]
  cases script with
  | nil =>
      rw [bind_died (t := s) (r := []) rfl]
      simp [Ends, Refused]
  | cons first script =>
  cases prepared : m.refuses first with
  | true =>
      rw [bind_threw (ask_refused prepared)]
      exact ⟨.inl rfl, first, List.mem_cons_self, prepared⟩
  | false =>
  rw [bind_returned (ask_granted prepared)]
  cases script with
  | nil =>
      rw [bind_died (t := s) (r := []) rfl]
      simp [Ends, Refused, prepared]
  | cons second script =>
  cases renamed : m.refuses second with
  | true =>
      rw [bind_threw (ask_refused renamed)]
      exact ⟨.inl rfl, second, by simp, renamed⟩
  | false =>
  rw [bind_returned (ask_granted renamed), bind_returned (t := s.install) (r := script) rfl]
  cases script with
  | nil =>
      show ¬Refused m [first, second]
      simp [Refused, prepared, renamed]
  | cons third script =>
  cases flushed : m.refuses third with
  | true =>
      rw [bind_threw (ask_refused flushed)]
      exact ⟨.inr rfl, third, by simp, flushed⟩
  | false =>
      rw [bind_returned (ask_granted flushed)]
      exact ⟨rfl, by simp [Refused, prepared, renamed, flushed]⟩

/-- A load that returns has read what the file says, and left the answers for
the write; one that does not return has changed nothing. -/
theorem load_ends (script : List ρ) :
    (s.Readable m script ∧
      ∃ t, load m s script = (.returned (), t, s.answersForWrite script) ∧
        t.loaded = true ∧ t.memory = s.contents m ∧ t.file = s.file) ∨
    (¬s.Readable m script ∧
      ∃ exit rest, load m s script = (exit, s, rest) ∧ exit ≠ .returned ()) := by
  cases loaded : s.loaded with
  | true =>
      refine .inl ⟨.inl loaded, s, ?_, loaded, (contents_of_loaded loaded).symm, rfl⟩
      show (if s.loaded then pure () else _ : Proc (Snapshot δ) ρ Unit Unit) s script = _
      rw [if_pos loaded, answersForWrite, if_pos loaded]
      rfl
  | false =>
  have unloaded : ¬s.loaded = true := by
    rw [loaded]
    exact Bool.false_ne_true
  have start : load m s script = (ask m >>= fun _ =>
      match s.file with
      | none => modify (·.adopt m.blank)
      | some contents =>
          if m.valid contents then modify (·.adopt contents) else throw ()) s script := by
    show (if s.loaded then pure () else _ : Proc (Snapshot δ) ρ Unit Unit) s script = _
    rw [if_neg unloaded]
  rw [start, answersForWrite, if_neg unloaded, contents, if_neg unloaded]
  cases script with
  | nil =>
      refine .inr ⟨?_, .died, [], rfl, nofun⟩
      rintro (loaded' | ⟨⟨_, _, taken, _⟩, _⟩)
      · exact unloaded loaded'
      · cases taken
  | cons answer rest =>
  cases read : m.refuses answer with
  | true =>
      refine .inr ⟨?_, .threw (), rest, bind_threw (ask_refused read), nofun⟩
      rintro (loaded' | ⟨⟨_, _, taken, granted⟩, _⟩)
      · exact unloaded loaded'
      · cases taken
        rw [read] at granted
        cases granted
  | false =>
  rw [bind_returned (ask_granted read)]
  cases found : s.file with
  | none =>
      exact .inl ⟨.inr ⟨⟨answer, rest, rfl, read⟩, by simp [found]⟩,
        s.adopt m.blank, rfl, rfl, rfl, found⟩
  | some contents =>
      by_cases valid : m.valid contents = true
      · refine .inl ⟨.inr ⟨⟨answer, rest, rfl, read⟩, by simp [found, valid]⟩,
          s.adopt contents, ?_, rfl, rfl, found⟩
        dsimp only
        rw [if_pos valid]
        rfl
      · refine .inr ⟨?_, .threw (), rest, ?_, nofun⟩
        · rintro (loaded' | ⟨_, accepted⟩)
          · exact unloaded loaded'
          · exact valid (accepted contents found)
        · dsimp only
          rw [if_neg valid]
          rfl

section Update

variable {change : δ → Change δ} {recorded : δ → Prop} {t : Snapshot δ}

/-- What a load has read is what the file says. -/
theorem synced_of_read (synced : s.Synced m) (loaded : t.loaded = true)
    (memory : t.memory = s.contents m) (file : t.file = s.file) : t.Synced m := by
  rw [synced_iff loaded, memory, file]
  exact synced

/-- A write of changed contents is clean if it is not refused, or if the
contents were the same before. -/
theorem written_clean_iff {contents : δ} {script : List ρ} (synced : s.Synced m)
    (loaded : t.loaded = true) (file : t.file = s.file) (done : recorded contents) :
    Clean m id recorded s (write m (t.setMemory contents) script) ↔
      ¬(contents ≠ s.contents m ∧ Refused m script) := by
  have installed : (t.setMemory contents).install.Synced m :=
    (synced_iff (s := (t.setMemory contents).install) loaded).mpr rfl
  have ended := write_ends (m := m) (s := t.setMemory contents) script
  generalize write m (t.setMemory contents) script = run at ended ⊢
  obtain ⟨exit, t', rest⟩ := run
  cases exit with
  | returned =>
      obtain ⟨rfl, granted⟩ := ended
      exact ⟨fun _ spoilt => granted spoilt.2, fun _ => ⟨installed, done⟩⟩
  | died => exact ⟨fun _ spoilt => ended spoilt.2, fun _ => trivial⟩
  | threw =>
      obtain ⟨left, refused⟩ := ended
      have holds : t'.contents m = contents := by
        rcases left with rfl | rfl <;> exact contents_of_loaded loaded
      constructor
      · rintro ⟨_, same⟩ spoilt
        exact spoilt.1 (holds.symm.trans same)
      · intro fine
        have same : contents = s.contents m := by
          by_contra differs
          exact fine ⟨differs, refused⟩
        refine ⟨?_, holds.trans same⟩
        rcases left with rfl | rfl
        · rw [id, synced_iff (s := t.setMemory contents) loaded, setMemory_memory,
            setMemory_file, file, same]
          exact synced
        · exact installed

/-- An update is clean unless its write is refused after memory has
changed. -/
theorem update_clean_iff (kept : ∀ d, change d = .unchanged → recorded d)
    (made : ∀ d d', change d = .changed d' → recorded d') (synced : s.Synced m)
    (script : List ρ) :
    Clean m id recorded s (update m change s script) ↔ ¬s.Spoils m change script := by
  rw [update]
  rcases load_ends (m := m) (s := s) script with
    ⟨readable, t, read, loaded, memory, file⟩ | ⟨unreadable, exit, rest, read, failed⟩
  · have after : t.Synced m := synced_of_read synced loaded memory file
    have same : t.contents m = s.contents m := (contents_of_loaded loaded).trans memory
    rw [bind_returned read, bind_returned (t := t) rfl, memory]
    cases wanted : change (s.contents m) with
    | refused =>
        refine ⟨fun _ spoilt => ?_, fun _ => ⟨after, same⟩⟩
        obtain ⟨_, ⟨_, changed, _⟩, _⟩ := spoilt
        rw [wanted] at changed
        cases changed
    | unchanged =>
        refine ⟨fun _ spoilt => ?_, fun _ => ⟨after, ?_⟩⟩
        · obtain ⟨_, ⟨_, changed, _⟩, _⟩ := spoilt
          rw [wanted] at changed
          cases changed
        · have current : s.contents m = t.file.getD m.blank := same.symm.trans after
          exact current ▸ kept _ wanted
    | changed contents =>
        rw [perform, bind_returned (t := t.setMemory contents) rfl,
          written_clean_iff synced loaded file (made _ _ wanted)]
        refine not_congr ⟨?_, ?_⟩
        · rintro ⟨differs, refused⟩
          exact ⟨readable, ⟨contents, wanted, differs⟩, refused⟩
        · rintro ⟨_, ⟨_, changed, differs⟩, refused⟩
          obtain rfl := Change.changed.inj (wanted.symm.trans changed)
          exact ⟨differs, refused⟩
  · refine ⟨fun _ spoilt => unreadable spoilt.1, fun _ => ?_⟩
    cases exit with
    | returned => exact absurd rfl failed
    | threw =>
        rw [bind_threw read]
        exact ⟨synced, rfl⟩
    | died =>
        rw [bind_died read]
        trivial

/-- A program that does what an update does is clean when the update is. -/
theorem clean_iff_of_related {σ ε : Type} {view : σ → Snapshot δ} {R S : σ → Snapshot δ → Prop}
    {p : Proc σ ρ ε Unit} {u : σ} {script : List ρ}
    (alike : Alike R S (p u script) (update m change (view u) script))
    (returned : ∀ s t, R s t → t = view s) (stopped : ∀ s t, S s t → t = view s) :
    Clean m view recorded u (p u script) ↔
      Clean m id recorded (view u) (update m change (view u) script) := by
  generalize p u script = run at alike ⊢
  generalize update m change (view u) script = run' at alike ⊢
  obtain ⟨exit, s', rest⟩ := run
  obtain ⟨exit', t', rest'⟩ := run'
  cases exit <;> cases exit' <;> try exact alike.elim
  case returned.returned =>
    rw [returned s' t' alike.1]
    exact Iff.rfl
  case threw.threw =>
    rw [stopped s' t' alike.1]
    exact Iff.rfl
  case died.died => exact Iff.rfl

end Update

end Snapshot

end Library
