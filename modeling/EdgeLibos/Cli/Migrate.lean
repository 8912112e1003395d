import EdgeLibos.Cli.Serve

/-!
# Migrating

`migrate` freezes a module in one process and serves the snapshot in another, by way of a
file of its own. The guest finds in the second what it left in the first.
-/

namespace EdgeLibos.Cli

open Lib Snapshot
open HostTree (Disk Fault)
open Paths (bytesOf)

/-- Why the host cannot find the program, or start it for one of the two. -/
structure Spawns where
  currentExe : Option String
  freeze : Option String
  serve : Option String

def exitCode : RunError → Nat
  | .cli _ => 2
  | _ => 1

def exited (command : String) (e : RunError) : CliError :=
  .args ("migrate: " ++ command ++ " subprocess exited exit status: " ++ toString (exitCode e))

def serveProcess (engine : Engine) (p : Process) (d : Disk) (snapPath wasmPath : PathBuf) :
    Except RunError (Kernel × Disk) := do
  let kernel ← serveMain engine p d [snapPath, wasmPath]
  let bytes ← readModule d "serve" wasmPath
  .ok (kernel, (engine.callStart bytes kernel d).2)

/-- `freezing` and `serving` are what the two processes start with. The environment of the
second is that of `migrate`. `fault` is how the write of the snapshot fails, `unlink` how its
removal does. -/
def runMainSubprocess (engine : Engine) (freezing serving : Process) (spawns : Spawns) (d : Disk)
    (args : List String) (snapPath : PathBuf) (fault : Option (Fault IoError)) (unlink : Option IoError) :
    Except CliError Kernel × Disk :=
  match parseMigrateArgs args with
  | .error e => (.error e, d)
  | .ok (wasmPath, guestArgs) =>
    match spawns.currentExe, spawns.freeze with
    | some e, _ => (.error (.args ("migrate: cannot locate current_exe for subprocess spawn: " ++ e)), d)
    | none, some e => (.error (.args ("migrate: freeze subprocess failed: " ++ e)), d)
    | none, none =>
      match freezeMain engine freezing d (freezeArgv wasmPath guestArgs snapPath).tail fault with
      | (.error e, d) => (.error (exited "freeze" e), d.discard (bytesOf snapPath) unlink)
      | (.ok (), d) =>
        match spawns.serve with
        -- The file is not removed on this way out.
        | some e => (.error (.args ("migrate: serve subprocess failed: " ++ e)), d)
        | none =>
          match serveProcess engine serving d snapPath wasmPath with
          | .error e => (.error (exited "serve" e), d.discard (bytesOf snapPath) unlink)
          | .ok (kernel, d) => (.ok kernel, d.discard (bytesOf snapPath) unlink)

-- ---------------------------------------------------------------------------
-- The two processes
-- ---------------------------------------------------------------------------

variable {engine : Engine} {p : Process} {d d' : Disk} {fault : Option (Fault IoError)} {unlink : Option IoError}
  {k k' : Kernel}

/-- `k` is what the guest leaves of a module that is frozen at the disk `d`. -/
structure Frozen (engine : Engine) (p : Process) (d : Disk) (wasmPath : String) (guestArgs : List String)
    (k : Kernel) : Prop where
  runs : ∃ bytes loaded, readModule d "freeze" wasmPath = .ok bytes ∧
    engine.load bytes (.new guestArgs [] p.vfs p.seed) = .ok loaded ∧ k = (engine.callStart bytes loaded d).1

theorem freezeMain_ok (hargs : parseFreezeArgv args = .ok (out, wasmPath, guestArgs))
    (h : freezeMain engine p d args fault = (.ok (), d')) : ∃ k sha d₁, Frozen engine p d wasmPath guestArgs k ∧
      writeSnapshotFile d₁ out { tryToSnapshot k with moduleSha256 := sha } fault = (.ok (), d') := by
  simp only [freezeMain, hargs] at h
  split at h
  · cases h
  · rename_i snap d₁ hfreeze
    obtain ⟨bytes, hbytes, hfreeze⟩ := bind_ok hfreeze
    obtain ⟨loaded, hload, hfreeze⟩ := bind_ok hfreeze
    cases hfreeze
    split at h
    · rename_i hwrite
      cases h
      exact ⟨_, _, _, ⟨bytes, loaded, hbytes, hload, rfl⟩, hwrite⟩
    · cases h

section
variable {freezing serving : Process} {spawns : Spawns} {args guestArgs : List String} {wasmPath snapPath : String}

theorem fileAt_of_freeze (hparse : parseFreezeArgv args = .ok (out, wasmPath, guestArgs))
    (h : freezeMain engine p d args fault = (.ok (), d')) : ∃ ino, d'.fileAt (bytesOf out) = .ok ino := by
  obtain ⟨k, sha, d₁, -, hwrite⟩ := freezeMain_ok hparse h
  obtain ⟨-, hread, -⟩ := Disk.write_ok (writeSnapshotFile_ok hwrite)
  obtain ⟨ino, hfile, -⟩ := map_ok hread
  exact ⟨ino, hfile⟩

/-- The disk when the snapshot is to be removed, both processes having been started. -/
def removalDisk (engine : Engine) (freezing serving : Process) (d : Disk) (wasmPath : String) (guestArgs : List String)
    (snapPath : PathBuf) (fault : Option (Fault IoError)) : Disk :=
  match freezeMain engine freezing d (freezeArgv wasmPath guestArgs snapPath).tail fault with
  | (.error _, d) => d
  | (.ok (), d) =>
    match serveProcess engine serving d snapPath wasmPath with
    | .error _ => d
    | .ok (_, d) => d

theorem fileAt_discard (d : Disk) (path : PathBuf) (unlink : Option IoError) :
    (∃ ino, (d.discard (bytesOf path) unlink).fileAt (bytesOf path) = .ok ino) ↔
      unlink.isSome ∧ ∃ ino, d.fileAt (bytesOf path) = .ok ino := by
  cases unlink with
  | some e => simp [Disk.discard]
  | none => simpa [Disk.discard] using Disk.fileAt_remove d (bytesOf path)

/-- A file is left where the snapshot was only if the host cannot start the process that serves
or fails to remove it; whatever else goes wrong, the snapshot is removed. -/
theorem migrate_leaves_iff (hargs : parseMigrateArgs args = .ok (wasmPath, guestArgs))
    (hfree : Free "--out" wasmPath guestArgs) (hnew : ∀ ino, d.fileAt (bytesOf snapPath) ≠ .ok ino) :
    (∃ ino, (runMainSubprocess engine freezing serving spawns d args snapPath fault unlink).2.fileAt
        (bytesOf snapPath) = .ok ino) ↔
      spawns.currentExe = none ∧ spawns.freeze = none ∧
        ((freezeMain engine freezing d (freezeArgv wasmPath guestArgs snapPath).tail fault).1 = .ok () ∧
            spawns.serve.isSome ∨
          unlink.isSome ∧ ∃ ino, (removalDisk engine freezing serving d wasmPath guestArgs snapPath fault).fileAt
            (bytesOf snapPath) = .ok ino) := by
  have hparse := (parseFreezeArgv_freezeArgv_iff wasmPath guestArgs snapPath).mpr hfree
  have hnone : ¬ ∃ ino, d.fileAt (bytesOf snapPath) = .ok ino := by simpa using hnew
  unfold runMainSubprocess
  rw [hargs]
  simp only
  cases spawns.currentExe with
  | some e => simpa using hnone
  | none =>
    cases spawns.freeze with
    | some e => simpa using hnone
    | none =>
      simp only [true_and]
      cases hfreeze : freezeMain engine freezing d (freezeArgv wasmPath guestArgs snapPath).tail fault with
      | mk result d₁ =>
        cases result with
        | error e => simp [removalDisk, hfreeze, fileAt_discard]
        | ok u =>
          cases spawns.serve with
          | some e => simpa using fileAt_of_freeze hparse hfreeze
          | none =>
            cases hserve : serveProcess engine serving d₁ snapPath wasmPath with
            | error e => simp [removalDisk, hfreeze, hserve, fileAt_discard]
            | ok r => simp [removalDisk, hfreeze, hserve, fileAt_discard]

end

-- ---------------------------------------------------------------------------
-- A web server that is moved
-- ---------------------------------------------------------------------------

def moduleFiles : HostTree.Files := HashMap.ofList [([], .dir), ([[119]], .file 0)]

theorem moduleFiles_numbered : ∀ l ino, moduleFiles.get? l = some (.file ino) → ino < 1 := by
  intro l ino h
  have hmem := HashMap.get?_eq_some_iff.mp h
  simp [moduleFiles, HashMap.ofList, HashMap.insert, HashMap.erase, HashMap.empty] at hmem
  omega

def moduleDisk : Disk where
  files := moduleFiles
  contents := fun _ => [0, 97, 115, 109]
  cwd := []
  nextIno := 1
  numbered := moduleFiles_numbered

def webEngine : Engine where
  sha256 _ := Vector.replicate 32 1
  instantiate _ kernel := .ok (kernel, some .zeroPage)
  callStart _ kernel d := ((Sys.insertSocket { kernel with fds := .empty } webListener).2, d)

theorem migrate_leaves_iff_web :
    (∃ ino, (runMainSubprocess webEngine soloProcess soloProcess ⟨none, none, some "Killed"⟩ moduleDisk ["/w"] "/s"
        none none).2.fileAt (bytesOf "/s") = .ok ino) ↔
      (none : Option String) = none ∧ (none : Option String) = none ∧
        ((freezeMain webEngine soloProcess moduleDisk (freezeArgv "/w" [] "/s").tail none).1 = .ok () ∧
            (some "Killed").isSome ∨
          (none : Option IoError).isSome ∧ ∃ ino, (removalDisk webEngine soloProcess soloProcess moduleDisk "/w" [] "/s"
            none).fileAt (bytesOf "/s") = .ok ino) := by
  refine migrate_leaves_iff rfl ⟨by decide, by decide⟩ ?_
  intro ino h
  have hmissing : moduleDisk.fileAt (bytesOf "/s") = .error .notFound := rfl
  rw [hmissing] at h
  cases h

end EdgeLibos.Cli
