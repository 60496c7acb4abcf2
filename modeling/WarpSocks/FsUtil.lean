import Mathlib.Data.List.Perm.Basic
import Mathlib.Logic.Function.Basic
import WarpSocks.Io
import WarpSocks.Machine.Tasks
import WarpSocks.Machine.Trace

/-!
# Private files

`write_private` of `fsutil.rs`, operation by operation: a temporary file that must not exist yet, any number of
writes to it, and a rename over the target, with the removal of the temporary file if anything fails.  Any number
of calls, of one process or of several, go on at once, every operation may fail, and a process may be killed
between any two of them.

At every instant the target of a call holds what it held at first or the whole contents of the last call that has
replaced it (`writePrivate_atomic`); nobody meets a part of a file.
-/

namespace WarpSocks.FsUtil

/-- A path, cut before its last component; `parent` is empty if there is only that. -/
structure Path where
  parent : String
  fileName : String
  deriving DecidableEq

/-- A name in a directory. -/
structure Location where
  directory : String
  name : String
  deriving DecidableEq

/-- The directory that `write_private` works in. -/
def Path.directory (path : Path) : String := if path.parent = "" then "." else path.parent

def Path.location (path : Path) : Location := ⟨path.directory, path.fileName⟩

def hexDigit (n : Nat) : Char := Char.ofNat (if n < 10 then 48 + n else 87 + n)

/-- The format `{:032x}`. -/
def hex32 (n : BitVec 128) : String :=
  .ofList ((List.range 32).reverse.map fun i => hexDigit (n.toNat >>> (4 * i) % 16))

def temporaryName (random : BitVec 128) : String := ".warp-socks-" ++ hex32 random ++ ".tmp"

/-- A path that is not in the form of a temporary file. -/
structure Target where
  path : Path
  plain : ∀ random, path.fileName ≠ temporaryName random

private theorem head?_temporaryName (random : BitVec 128) : (temporaryName random).toList.head? = some '.' := by
  simp [temporaryName, String.toList_append]

/-- A path whose file is not hidden. -/
def Target.ofName (parent fileName : String) (h : fileName.toList.head? ≠ some '.') : Target :=
  ⟨⟨parent, fileName⟩, fun random (heq : fileName = _) => h (heq ▸ head?_temporaryName random)⟩

/-- A regular file, with its mode. -/
structure File where
  bytes : List UInt8
  mode : Nat
  deriving DecidableEq

abbrev Files := Location → Option File

/-- Where a call of `write_private` is. -/
inductive Phase where
  | opening
  /-- So many bytes are written. -/
  | writing (count : Nat)
  | removing (error : IoError)
  | returned (result : Except IoError Unit)
  /-- The process was killed. -/
  | killed
  deriving DecidableEq

/-- A call of `write_private`. -/
structure Call where
  target : Target
  random : BitVec 128
  contents : List UInt8
  phase : Phase
  /-- The temporary file is there because of this call. -/
  created : Bool

namespace Call

def temporary (c : Call) : Location := ⟨c.target.path.directory, temporaryName c.random⟩

def location (c : Call) : Location := c.target.path.location

/-- What a call leaves at its target. -/
def file (c : Call) : File := ⟨c.contents, 0o600⟩

end Call

/-- What the file system answers. -/
inductive Outcome where
  | done
  | wrote (count : Nat)
  | failed (error : IoError)

/-- The files, the calls so far, and those that have replaced their target, in this order. -/
structure World where
  files : Files
  calls : List Call
  replaced : List Call

inductive Event where
  | call (target : Target) (random : BitVec 128) (contents : List UInt8)
  /-- The next operation of a call. -/
  | step (i : Nat) (outcome : Outcome)
  | kill (i : Nat)

/-- `options.open(&temporary)`, with `create_new`. -/
def openTemporary (files : Files) (c : Call) : Option (Files × Call) :=
  if files c.temporary = none then
    some (Function.update files c.temporary (some ⟨[], 0o600⟩), { c with phase := .writing 0, created := true })
  else none

/-- A write of `file.write_all`, which takes the next bytes. -/
def appendTemporary (files : Files) (c : Call) (count taken : Nat) : Option (Files × Call) :=
  if 0 < taken ∧ count + taken ≤ c.contents.length then
    some (Function.update files c.temporary ((files c.temporary).map fun f =>
      { f with bytes := f.bytes ++ (c.contents.drop count).take taken }),
        { c with phase := .writing (count + taken) })
  else none

/-- `fs::rename(&temporary, path)`, once everything is written. -/
def renameTemporary (files : Files) (c : Call) (count : Nat) : Option (Files × Call) :=
  if count = c.contents.length then
    some (Function.update (Function.update files c.location (files c.temporary)) c.temporary none,
      { c with phase := .returned (.ok ()), created := false })
  else none

/-- The next operation of a call. -/
def Call.step (files : Files) (c : Call) (outcome : Outcome) : Option (Files × Call) :=
  match c.phase, outcome with
  | .opening, .done => openTemporary files c
  | .opening, .failed e => some (files, { c with phase := .returned (.error e) })
  | .writing count, .wrote taken => appendTemporary files c count taken
  | .writing count, .done => renameTemporary files c count
  | .writing _, .failed e => some (files, { c with phase := .removing e })
  | .removing e, .done =>
    some (Function.update files c.temporary none, { c with phase := .returned (.error e), created := false })
  -- the error of `remove_file` is dropped
  | .removing e, .failed _ => some (files, { c with phase := .returned (.error e) })
  | _, _ => none

namespace World

def start (files : Files) : World := ⟨files, [], []⟩

def step (w : World) : Event → Option World
  | .call target random contents => some { w with calls := w.calls ++ [⟨target, random, contents, .opening, false⟩] }
  | .step i outcome =>
    match w.calls[i]? with
    | none => none
    | some c =>
      (c.step w.files outcome).map fun (files, c') =>
        ⟨files, w.calls.set i c', if c'.phase = .returned (.ok ()) then w.replaced ++ [c'] else w.replaced⟩
  | .kill i =>
    match w.calls[i]? with
    | none => none
    | some c =>
      match c.phase with
      | .returned _ => none
      | _ => some { w with calls := w.calls.set i { c with phase := .killed } }

/-- The last call that has replaced the file at `p`. -/
def lastAt (w : World) (p : Location) : Option Call := (w.replaced.filter fun c => c.location = p).getLast?

end World

/-! ### What an operation does -/

/-- What a step of a call does to the files and to the call. -/
inductive Moves (files : Files) (c : Call) : Files → Call → Prop where
  | opened (hphase : c.phase = .opening) (hfree : files c.temporary = none) :
    Moves files c (Function.update files c.temporary (some ⟨[], 0o600⟩))
      { c with phase := .writing 0, created := true }
  | wrote (count taken : Nat) (hphase : c.phase = .writing count) :
    Moves files c
      (Function.update files c.temporary ((files c.temporary).map fun f =>
        { f with bytes := f.bytes ++ (c.contents.drop count).take taken }))
      { c with phase := .writing (count + taken) }
  | renamed (hphase : c.phase = .writing c.contents.length) :
    Moves files c (Function.update (Function.update files c.location (files c.temporary)) c.temporary none)
      { c with phase := .returned (.ok ()), created := false }
  | removed (e : IoError) (hphase : c.phase = .removing e) :
    Moves files c (Function.update files c.temporary none) { c with phase := .returned (.error e), created := false }
  | stays (phase : Phase) (hlive : ∀ result, c.phase ≠ .returned result) (hwriting : ∀ count, phase ≠ .writing count)
    (hremoving : ∀ e, phase = .removing e → ∃ count, c.phase = .writing count) (hok : phase ≠ .returned (.ok ())) :
    Moves files c files { c with phase }

section Step

variable {files₀ files files' : Files} {w w' : World} {c c' d : Call} {i : Nat} {outcome : Outcome}

private theorem step_moves (h : c.step files outcome = some (files', c')) : Moves files c files' c' := by
  unfold Call.step at h
  split at h
  · rename_i hphase
    unfold openTemporary at h
    split at h
    · cases h
      exact .opened hphase (by assumption)
    · nomatch h
  · rename_i e hphase
    cases h
    exact .stays _ (by simp [hphase]) (by simp) (by simp) (by simp)
  · rename_i count taken hphase
    obtain ⟨_, h⟩ := Option.ite_none_right_eq_some.1 h
    cases h
    exact .wrote count taken hphase
  · rename_i count hphase
    obtain ⟨hall, h⟩ := Option.ite_none_right_eq_some.1 h
    cases h
    exact .renamed (hall ▸ hphase)
  · rename_i count e hphase
    cases h
    exact .stays _ (by simp [hphase]) (by simp) (fun _ _ => ⟨count, hphase⟩) (by simp)
  · rename_i e hphase
    cases h
    exact .removed e hphase
  · rename_i e _ hphase
    cases h
    exact .stays _ (by simp [hphase]) (by simp) (by simp) (by simp)
  · nomatch h

/-- A step of the world is a new call, or an operation or the end of a call. -/
private theorem worldStep_cases {e : Event} (h : w.step e = some w') :
    (∃ target random contents, e = .call target random contents ∧
      w' = { w with calls := w.calls ++ [⟨target, random, contents, .opening, false⟩] }) ∨
    ∃ i c files' c', w.calls[i]? = some c ∧ Moves w.files c files' c' ∧ w' =
      ⟨files', w.calls.set i c', if c'.phase = .returned (.ok ()) then w.replaced ++ [c'] else w.replaced⟩ := by
  cases e with
  | call target random contents => exact .inl ⟨target, random, contents, rfl, (Option.some.inj h).symm⟩
  | step i outcome =>
    simp only [World.step] at h
    split at h
    · nomatch h
    · rename_i c hc
      obtain ⟨⟨files', c'⟩, hmove, rfl⟩ := Option.map_eq_some_iff.1 h
      exact .inr ⟨i, c, files', c', hc, step_moves hmove, rfl⟩
  | kill i =>
    simp only [World.step] at h
    split at h
    · nomatch h
    · rename_i c hc
      split at h
      · nomatch h
      · rename_i hlive
        cases h
        exact .inr ⟨i, c, _, _, hc, .stays .killed hlive (by simp) (by simp) (by simp), rfl⟩

private theorem Moves.same (h : Moves files c files' c') :
    c'.target = c.target ∧ c'.random = c.random ∧ c'.contents = c.contents := by
  cases h <;> exact ⟨rfl, rfl, rfl⟩

private theorem Moves.temporary (h : Moves files c files' c') : c'.temporary = c.temporary := by
  obtain ⟨htarget, hrandom, -⟩ := h.same
  unfold Call.temporary
  rw [htarget, hrandom]

/-- No temporary file is a target. -/
private theorem location_ne_temporary (p : Target) (c : Call) : p.path.location ≠ c.temporary :=
  fun h => p.plain c.random (congrArg Location.name h)

/-- An operation touches the temporary file, and a target only if it replaces it. -/
private theorem Moves.frame (h : Moves files c files' c') {q : Location} (hq : q ≠ c.temporary)
    (hlocation : c'.phase = .returned (.ok ()) → q ≠ c.location) : files' q = files q := by
  cases h with
  | opened => exact Function.update_of_ne hq _ _
  | wrote => exact Function.update_of_ne hq _ _
  | renamed => rw [Function.update_of_ne hq, Function.update_of_ne (hlocation rfl)]
  | removed => exact Function.update_of_ne hq _ _
  | stays => rfl

end Step

/-! ### Invariants -/

/-- The temporary file of a call was not there before, and holds what the call has written. -/
structure Good (files₀ files : Files) (c : Call) : Prop where
  created : c.created = true → files₀ c.temporary = none ∧
    ∃ count, files c.temporary = some ⟨c.contents.take count, 0o600⟩
  writing : ∀ count, c.phase = .writing count →
    c.created = true ∧ files c.temporary = some ⟨c.contents.take count, 0o600⟩
  removing : ∀ e, c.phase = .removing e → c.created = true
  ended : c.phase = .returned (.ok ()) → c.created = false

/-- No two calls have created the same temporary file. -/
def Distinct (calls : List Call) : Prop :=
  ∀ (i j : Nat) (c d : Call), calls[i]? = some c → calls[j]? = some d → c.created = true → d.created = true →
    c.temporary = d.temporary → i = j

/-- The file that the last replacement has left, or the one there was. -/
def current (files₀ : Files) (w : World) (p : Location) : Option File :=
  match w.lastAt p with
  | some c => some c.file
  | none => files₀ p

structure Sound (files₀ : Files) (w : World) : Prop where
  good : ∀ c ∈ w.calls, Good files₀ w.files c
  distinct : Distinct w.calls
  target : ∀ p : Target, w.files p.path.location = current files₀ w p.path.location
  other : ∀ q, (∀ p : Target, q ≠ p.path.location) → (∀ c ∈ w.calls, c.created = true → c.temporary ≠ q) →
    w.files q = files₀ q
  results : (w.calls.filter fun c => c.phase = .returned (.ok ())).Perm w.replaced

section Invariant

variable {files₀ files files' : Files} {w w' : World} {c c' d : Call} {i : Nat} {outcome : Outcome}

private theorem sound_start (files₀ : Files) : Sound files₀ (.start files₀) := by
  refine ⟨fun _ h => (nomatch h), fun i j c d h => ?_, fun _ => rfl, fun _ _ _ => rfl, .nil⟩
  simp [World.start] at h

private theorem Good.ne_none (h : Good files₀ files d) (hd : d.created = true) : files d.temporary ≠ none := by
  obtain ⟨-, count, hfile⟩ := h.created hd
  exact fun hnone => nomatch hfile.symm.trans hnone

private theorem Good.frame (h : Good files₀ files d)
    (hframe : d.created = true → files' d.temporary = files d.temporary) :
    Good files₀ files' d := by
  refine ⟨fun hd => ?_, fun count hphase => ?_, h.removing, h.ended⟩
  · rw [hframe hd]
    exact h.created hd
  · obtain ⟨hd, hfile⟩ := h.writing count hphase
    exact ⟨hd, (hframe hd).trans hfile⟩

/-- What an operation makes of its own call. -/
private theorem Moves.good (h : Moves files c files' c') (hc : Good files₀ files c)
    (hfresh : files c.temporary = none → files₀ c.temporary = none) : Good files₀ files' c' := by
  cases h with
  | opened hphase hfree =>
    have hfile : Function.update files c.temporary (some (⟨[], 0o600⟩ : File)) c.temporary =
        some ⟨c.contents.take 0, 0o600⟩ := Function.update_self _ _ _
    refine ⟨fun _ => ⟨hfresh hfree, 0, hfile⟩, fun count hphase => ⟨rfl, ?_⟩, fun e hphase => (nomatch hphase),
      fun hphase => nomatch hphase⟩
    cases hphase
    exact hfile
  | wrote count taken hphase =>
    obtain ⟨hcreated, hfile⟩ := hc.writing count hphase
    -- the file now holds the next bytes as well
    have hfile' : Function.update files c.temporary ((files c.temporary).map fun f =>
        { f with bytes := f.bytes ++ (c.contents.drop count).take taken }) c.temporary =
        some ⟨c.contents.take (count + taken), 0o600⟩ := by
      rw [Function.update_self, hfile, List.take_add]
      rfl
    refine ⟨fun _ => ⟨(hc.created hcreated).1, _, hfile'⟩, fun count' hphase' => ?_,
      fun e hphase' => (nomatch hphase'), fun hphase => nomatch hphase⟩
    cases hphase'
    exact ⟨hcreated, hfile'⟩
  | renamed => exact ⟨fun h => (nomatch h), fun _ h => (nomatch h), fun _ h => (nomatch h), fun _ => rfl⟩
  | removed => exact ⟨fun h => (nomatch h), fun _ h => (nomatch h), fun _ h => (nomatch h), fun _ => rfl⟩
  | stays phase hlive hwriting hremoving hok =>
    refine ⟨hc.created, fun count hphase => (hwriting count hphase).elim, fun e hphase => ?_, fun h => (hok h).elim⟩
    obtain ⟨count, hcount⟩ := hremoving e hphase
    exact (hc.writing count hcount).1

/-- A call that touches its temporary file has created it, or creates it now. -/
private theorem Moves.touches (h : Moves files c files' c') (hc : Good files₀ files c) :
    files' c.temporary = files c.temporary ∨ c.created = true ∨ files c.temporary = none := by
  cases h with
  | opened hphase hfree => exact .inr (.inr hfree)
  | wrote count taken hphase => exact .inr (.inl (hc.writing count hphase).1)
  | renamed hphase => exact .inr (.inl (hc.writing _ hphase).1)
  | removed e hphase => exact .inr (.inl (hc.removing e hphase))
  | stays => exact .inl rfl

private theorem Moves.creates (h : Moves files c files' c') (hc' : c'.created = true) :
    c.created = true ∨ files c.temporary = none := by
  cases h with
  | opened hphase hfree => exact .inr hfree
  | wrote => exact .inl hc'
  | renamed => nomatch hc'
  | removed => nomatch hc'
  | stays => exact .inl hc'

/-- A call that is not done with its temporary file, or had none, leaves the names alone that no call has
created. -/
private theorem Moves.clean (h : Moves files c files' c') (hc : Good files₀ files c) (hc' : c'.created = false)
    (hother : c.created = false → files c.temporary = files₀ c.temporary) :
    files' c.temporary = files₀ c.temporary := by
  cases h with
  | opened => nomatch hc'
  | wrote count taken hphase =>
    have := (hc.writing count hphase).1
    exact nomatch hc'.symm.trans this
  | renamed hphase =>
    rw [Function.update_self]
    exact (hc.created (hc.writing _ hphase).1).1.symm
  | removed e hphase =>
    rw [Function.update_self]
    exact (hc.created (hc.removing e hphase)).1.symm
  | stays => exact hother hc'

/-- A call has ended well with this operation, or neither before nor after it. -/
private theorem Moves.ends (h : Moves files c files' c') : c.phase ≠ .returned (.ok ()) := by
  cases h with
  | opened hphase => rw [hphase]; exact fun h => nomatch h
  | wrote count taken hphase => rw [hphase]; exact fun h => nomatch h
  | renamed hphase => rw [hphase]; exact fun h => nomatch h
  | removed e hphase => rw [hphase]; exact fun h => nomatch h
  | stays phase hlive => exact hlive _

/-- A name that is free was free at first, if it is not a target. -/
private theorem Sound.fresh (h : Sound files₀ w) (c : Call) (hfree : w.files c.temporary = none) :
    files₀ c.temporary = none := by
  rw [← hfree]
  refine (h.other c.temporary (fun p => (location_ne_temporary p c).symm) fun d hd hcreated heq => ?_).symm
  exact (h.good d hd).ne_none hcreated (heq ▸ hfree)

/-- The other calls' files are left alone. -/
private theorem Sound.frame (h : Sound files₀ w) (hc : w.calls[i]? = some c) (hmoves : Moves w.files c files' c')
    {j : Nat} (hd : w.calls[j]? = some d) (hne : j ≠ i) (hcreated : d.created = true) :
    files' d.temporary = w.files d.temporary := by
  by_cases htemp : d.temporary = c.temporary
  · rcases hmoves.touches (h.good c (List.mem_of_getElem? hc)) with hsame | howned | hfree
    · rw [htemp, hsame]
    · exact (hne (h.distinct j i d c hd hc hcreated howned htemp)).elim
    · exact ((h.good d (List.mem_of_getElem? hd)).ne_none hcreated (htemp ▸ hfree)).elim
  · exact hmoves.frame htemp fun _ => (location_ne_temporary c.target d).symm

private theorem Sound.distinct_moves (h : Sound files₀ w) (hc : w.calls[i]? = some c)
    (hmoves : Moves w.files c files' c') :
    Distinct (w.calls.set i c') := by
  -- no other call has created the name of this one
  have hother : ∀ (j : Nat) (d : Call), w.calls[j]? = some d → j ≠ i → d.created = true → c'.created = true →
      c'.temporary ≠ d.temporary := by
    intro j d hd hne hcreated hcreated' htemp
    rw [hmoves.temporary] at htemp
    rcases hmoves.creates hcreated' with howned | hfree
    · exact hne (h.distinct j i d c hd hc hcreated howned htemp.symm)
    · exact (h.good d (List.mem_of_getElem? hd)).ne_none hcreated (htemp ▸ hfree)
  intro j k d e hd he hcd hce htemp
  rcases Machine.getElem?_set_cases hd with ⟨rfl, rfl⟩ | ⟨hj, hd'⟩ <;>
    rcases Machine.getElem?_set_cases he with ⟨rfl, rfl⟩ | ⟨hk, he'⟩
  · rfl
  · exact (hother k e he' hk hce hcd htemp).elim
  · exact (hother j d hd' hj hcd hce htemp.symm).elim
  · exact h.distinct j k d e hd' he' hcd hce htemp

/-- A replacement leaves the contents of its call. -/
private theorem Moves.replaces (h : Moves files c files' c') (hc : Good files₀ files c)
    (hok : c'.phase = .returned (.ok ())) :
    files' c.location = some c'.file := by
  cases h with
  | opened => nomatch hok
  | wrote => nomatch hok
  | renamed hphase =>
    have hne : c.location ≠ c.temporary := location_ne_temporary c.target c
    rw [Function.update_of_ne hne, Function.update_self, (hc.writing _ hphase).2,
      List.take_length]
    rfl
  | removed => nomatch hok
  | stays _ _ _ _ hok' => exact (hok' hok).elim

private theorem Sound.target_moves (h : Sound files₀ w) (hc : w.calls[i]? = some c)
    (hmoves : Moves w.files c files' c') (p : Target) :
    files' p.path.location = current files₀
      ⟨files', w.calls.set i c', if c'.phase = .returned (.ok ()) then w.replaced ++ [c']
        else w.replaced⟩ p.path.location := by
  have hlocation : c'.location = c.location := by
    unfold Call.location
    rw [hmoves.same.1]
  by_cases hok : c'.phase = .returned (.ok ()) ∧ c'.location = p.path.location
  · rw [← hok.2, hlocation, hmoves.replaces (h.good c (List.mem_of_getElem? hc)) hok.1]
    simp [current, World.lastAt, hok.1, hlocation]
  · have hsame : files' p.path.location = w.files p.path.location :=
      hmoves.frame (location_ne_temporary p c) fun hphase heq => hok ⟨hphase, hlocation.trans heq.symm⟩
    have hlast : ((if c'.phase = .returned (.ok ()) then w.replaced ++ [c'] else w.replaced).filter
        fun c => c.location = p.path.location) = w.replaced.filter fun c => c.location = p.path.location := by
      split
      · rename_i hphase
        have hne : c'.location ≠ p.path.location := fun heq => hok ⟨hphase, heq⟩
        simp [List.filter_append, hne]
      · rfl
    rw [hsame, h.target p]
    simp only [current, World.lastAt, hlast]

private theorem Sound.other_moves (h : Sound files₀ w) (hc : w.calls[i]? = some c)
    (hmoves : Moves w.files c files' c') {q : Location}
    (hq : ∀ p : Target, q ≠ p.path.location) (hfree : ∀ d ∈ w.calls.set i c', d.created = true → d.temporary ≠ q) :
    files' q = files₀ q := by
  have hlt : i < w.calls.length := (List.getElem?_eq_some_iff.1 hc).1
  -- before the operation, only this call may have created `q`
  have hbefore : (c.created = true → c.temporary ≠ q) → w.files q = files₀ q := by
    intro hown
    refine h.other q hq fun d hd hcreated => ?_
    obtain ⟨j, hj⟩ := List.mem_iff_getElem?.1 hd
    by_cases hji : j = i
    · subst hji
      cases hc.symm.trans hj
      exact hown hcreated
    · refine hfree d (List.mem_iff_getElem?.2 ⟨j, ?_⟩) hcreated
      rw [List.getElem?_set_ne (Ne.symm hji)]
      exact hj
  by_cases htemp : c.temporary = q
  · have hcreated' : c'.created = false := by
      refine Bool.eq_false_iff.2 fun hcreated => ?_
      exact hfree c' (List.mem_set hlt c') hcreated (hmoves.temporary.trans htemp)
    subst htemp
    refine hmoves.clean (h.good c (List.mem_of_getElem? hc)) hcreated' fun hc0 => hbefore fun hc1 => ?_
    rw [hc0] at hc1
    nomatch hc1
  · rw [hmoves.frame (Ne.symm htemp) fun _ => hq c.target]
    exact hbefore fun _ => htemp

private theorem Sound.results_moves (h : Sound files₀ w) (hc : w.calls[i]? = some c)
    (hmoves : Moves w.files c files' c') :
    ((w.calls.set i c').filter fun c => c.phase = .returned (.ok ())).Perm
      (if c'.phase = .returned (.ok ()) then w.replaced ++ [c'] else w.replaced) := by
  obtain ⟨hlt, hget⟩ := List.getElem?_eq_some_iff.1 hc
  obtain ⟨l₁, l₂, hcalls, -, hset⟩ := List.exists_of_set (l := w.calls) hlt
  have hold := h.results
  rw [hget] at hcalls
  rw [hcalls] at hold
  rw [hset]
  have hends := hmoves.ends
  by_cases hok : c'.phase = .returned (.ok ())
  · simp only [List.filter_append, List.filter_cons, hends, hok, decide_false, decide_true, if_true] at hold ⊢
    exact List.perm_middle.trans ((hold.cons c').trans (List.perm_append_singleton c' w.replaced).symm)
  · simp only [List.filter_append, List.filter_cons, hends, hok, decide_false, if_false] at hold ⊢
    exact hold

private theorem Sound.moves (h : Sound files₀ w) (hc : w.calls[i]? = some c) (hmoves : Moves w.files c files' c') :
    Sound files₀
      ⟨files', w.calls.set i c', if c'.phase = .returned (.ok ()) then w.replaced ++ [c'] else w.replaced⟩ := by
  refine ⟨fun d hd => ?_, h.distinct_moves hc hmoves, h.target_moves hc hmoves, fun q => h.other_moves hc hmoves,
    h.results_moves hc hmoves⟩
  obtain ⟨j, hj⟩ := List.mem_iff_getElem?.1 hd
  rcases Machine.getElem?_set_cases hj with ⟨-, rfl⟩ | ⟨hne, hd'⟩
  · exact hmoves.good (h.good c (List.mem_of_getElem? hc)) (h.fresh c)
  · exact (h.good d (List.mem_of_getElem? hd')).frame (h.frame hc hmoves hd' hne)

/-- A call that has not begun to work. -/
private theorem Sound.call (h : Sound files₀ w) (target : Target) (random : BitVec 128) (contents : List UInt8) :
    Sound files₀ { w with calls := w.calls ++ [⟨target, random, contents, .opening, false⟩] } := by
  have hget : ∀ {j : Nat} {d : Call}, (w.calls ++ [⟨target, random, contents, .opening, false⟩])[j]? = some d →
      d.created = true → w.calls[j]? = some d := by
    intro j d hd hcreated
    rw [List.getElem?_append] at hd
    split at hd
    · exact hd
    · rw [List.getElem?_singleton] at hd
      obtain ⟨_, hd⟩ := Option.ite_none_right_eq_some.1 hd
      cases hd
      nomatch hcreated
  refine ⟨fun d hd => ?_, fun i j c d hc hd hcc hcd => ?_, h.target, fun q hq hfree => ?_, ?_⟩
  · rcases List.mem_append.1 hd with hold | hnew
    · exact h.good d hold
    · cases List.mem_singleton.1 hnew
      exact ⟨fun h => (nomatch h), fun _ h => (nomatch h), fun _ h => (nomatch h), fun _ => rfl⟩
  · exact h.distinct i j c d (hget hc hcc) (hget hd hcd) hcc hcd
  · exact h.other q hq fun c hc => hfree c (List.mem_append_left _ hc)
  · rw [List.filter_append, List.filter_singleton]
    simpa using h.results

private theorem Sound.step {e : Event} (h : Sound files₀ w) (hstep : w.step e = some w') : Sound files₀ w' := by
  rcases worldStep_cases hstep with ⟨target, random, contents, -, rfl⟩ | ⟨i, c, files', c', hc, hmoves, rfl⟩
  · exact h.call target random contents
  · exact h.moves hc hmoves

end Invariant

theorem sound_exec {files₀ : Files} {es : List Event} {w : World}
    (h : Machine.exec World.step (.start files₀) es = some w) : Sound files₀ w :=
  Machine.exec_induction (fun _ _ _ h hstep => h.step hstep) (sound_start files₀) h

/-- Every call was asked for. -/
private theorem requested {files₀ : Files} {es : List Event} {w : World}
    (h : Machine.exec World.step (.start files₀) es = some w) :
    ∀ c ∈ w.calls, .call c.target c.random c.contents ∈ es := by
  refine Machine.exec_induction_events (P := fun es w => ∀ c ∈ w.calls, Event.call c.target c.random c.contents ∈ es)
    (fun es w e w' ih hstep c hc => ?_) (fun _ hc => by simp [World.start] at hc) h
  rcases worldStep_cases hstep with ⟨target, random, contents, rfl, rfl⟩ | ⟨i, d, files', d', hd, hmoves, rfl⟩
  · rcases List.mem_append.1 hc with hold | hnew
    · exact List.mem_append_left _ (ih c hold)
    · cases List.mem_singleton.1 hnew
      simp
  · rcases List.mem_or_eq_of_mem_set hc with hold | rfl
    · exact List.mem_append_left _ (ih c hold)
    · rw [hmoves.same.1, hmoves.same.2.1, hmoves.same.2.2]
      exact List.mem_append_left _ (ih d (List.mem_of_getElem? hd))

/-- What the last replacement of a file has written was asked for. -/
theorem requested_lastAt {files₀ : Files} {es : List Event} {w : World}
    (h : Machine.exec World.step (.start files₀) es = some w) {p : Location} {c : Call}
    (hlast : w.lastAt p = some c) :
    c.location = p ∧ .call c.target c.random c.contents ∈ es := by
  obtain ⟨hreplaced, hlocation⟩ := List.mem_filter.1 (List.mem_of_getLast? hlast)
  have hmem := List.mem_of_mem_filter ((sound_exec h).results.mem_iff.2 hreplaced)
  exact ⟨of_decide_eq_true hlocation, requested h c hmem⟩

/-- Whatever calls there are, whatever fails and whoever is killed: at every instant a target holds the whole
contents of the last call that has replaced it, with a private mode, or what it held at first if there is none;
the calls that have replaced their target are those that have returned no error; and any other name is as it was,
unless a call has a temporary file there, which holds a front of its contents with a private mode and is gone when
the call has returned no error. -/
theorem writePrivate_atomic (files₀ : Files) (es : List Event) (w : World)
    (h : Machine.exec World.step (.start files₀) es = some w) :
    (∀ p : Target, w.files p.path.location =
      match w.lastAt p.path.location with
      | some c => some ⟨c.contents, 0o600⟩
      | none => files₀ p.path.location) ∧
    (w.calls.filter fun c => c.phase = .returned (.ok ())).Perm w.replaced ∧
    (∀ q, (∀ p : Target, q ≠ p.path.location) → (∀ c ∈ w.calls, c.created = true → c.temporary ≠ q) →
      w.files q = files₀ q) ∧
    ∀ c ∈ w.calls, c.created = true → c.phase ≠ .returned (.ok ()) ∧
      ∃ count, w.files c.temporary = some ⟨c.contents.take count, 0o600⟩ := by
  have hs := sound_exec h
  refine ⟨fun p => hs.target p, hs.results, hs.other, fun c hc hcreated => ⟨fun hok => ?_, ?_⟩⟩
  · exact nomatch ((hs.good c hc).ended hok).symm.trans hcreated
  · exact ((hs.good c hc).created hcreated).2

/-- Of two calls at once, the second replaces the file and the first fails. -/
theorem writePrivate_atomic_race :
    let p : Target := .ofName "/data" "state.json" (by decide)
    let es : List Event :=
      [.call p 1 [1, 2], .call p 2 [3], .step 0 .done, .step 1 .done, .step 0 (.wrote 1), .step 1 (.wrote 1),
        .step 1 .done, .step 0 (.failed ⟨.other, "No space left on device"⟩), .step 0 .done]
    ∃ w, Machine.exec World.step (.start fun _ => none) es = some w ∧
      w.files p.path.location = some ⟨[3], 0o600⟩ := by
  intro p es
  obtain ⟨w, hw⟩ := Option.isSome_iff_exists.1
    (by decide +kernel : (Machine.exec World.step (.start fun _ => none) es).isSome = true)
  have hlast : (some w).map (fun w => (w.lastAt p.path.location).map Call.contents) = some (some [3]) := by
    rw [← hw]
    decide +kernel
  obtain ⟨c, hc, hcontents⟩ := Option.map_eq_some_iff.1 (Option.some.inj hlast)
  refine ⟨w, hw, ?_⟩
  rw [(writePrivate_atomic _ es w hw).1 p, hc, ← hcontents]

end WarpSocks.FsUtil
