import Genaryx.Base.Shell
import Genaryx.Base.Words

/-!
# Commands over pinned SSH

The arguments that `ssh` is run with, and the commands that the remote shell is given. Every run has
the options of the pin, and a remote path is one word of one argument, whatever it holds.
-/

namespace Genaryx.Remote

structure SshTarget where
  host : Text
  port : Nat
  user : Text
  identityFile : Text
  pinnedHostKey : Text

variable (target : SshTarget) (knownHosts : Text)

def baseSshArgs : List Text :=
  ["-o".toList, "StrictHostKeyChecking=yes".toList,
    "-o".toList, "UserKnownHostsFile=".toList ++ knownHosts,
    "-o".toList, "GlobalKnownHostsFile=/dev/null".toList,
    "-o".toList, "BatchMode=yes".toList,
    "-o".toList, "PasswordAuthentication=no".toList,
    "-o".toList, "KbdInteractiveAuthentication=no".toList,
    "-o".toList, "IdentitiesOnly=yes".toList,
    "-i".toList, target.identityFile,
    "-p".toList, Text.decimal target.port,
    target.user ++ '@' :: target.host]

/-- The line of the pinned file. -/
def knownHostsLine : Text :=
  let hostField :=
    if target.port = 22 then target.host
    else '[' :: target.host ++ "]:".toList ++ Text.decimal target.port
  hostField ++ ' ' :: Text.trim target.pinnedHostKey ++ ['\n']

/-- Single-quote a text for a POSIX shell. -/
def shellSingleQuote (s : Text) : Text :=
  '\'' :: (s.flatMap fun c => if c = '\'' then "'\\''".toList else [c]) ++ ['\'']

def u64Max : Nat := 2 ^ 64 - 1

/-- The arguments of a run of one remote command. -/
def runArgs (remoteCmd : Text) : List Text := baseSshArgs target knownHosts ++ [remoteCmd]

def readRemoteFileArgs (remotePath : Text) : List Text :=
  runArgs target knownHosts ("cat -- ".toList ++ shellSingleQuote remotePath)

def spawnTailArgs (remotePath : Text) (fromOffset : Nat) : List Text :=
  runArgs target knownHosts
    ("tail -c +".toList ++ Text.decimal (min (fromOffset + 1) u64Max) ++ " -F ".toList ++
      shellSingleQuote remotePath)

variable {target knownHosts}

/-! ## How the remote shell reads the commands -/

/-- Within quotes, what replaces the single quotes of a text spells them. -/
theorem wordsFrom_quoted (s read rest : Text) :
    Shell.wordsFrom (.quoted read)
        ((s.flatMap fun c => if c = '\'' then "'\\''".toList else [c]) ++ '\'' :: rest) =
      Shell.wordsFrom (.word (read ++ s)) rest := by
  induction s generalizing read with
  | nil => simp [Shell.wordsFrom]
  | cons c s ih =>
      rw [List.flatMap_cons, List.append_assoc]
      have happend : read ++ c :: s = read ++ [c] ++ s := by simp
      rw [happend, ← ih]
      by_cases hc : c = '\''
      · subst hc
        simp [Shell.wordsFrom, Shell.isBlank]
      · rw [if_neg hc, List.singleton_append, Shell.wordsFrom, if_neg hc]

/-- A quoted text spells itself, whatever it holds. -/
theorem spells_shellSingleQuote (s : Text) : Shell.Spells (shellSingleQuote s) s :=
  Shell.spells_quoted (wordsFrom_quoted s)

theorem isPlain_of_mem_decimal {n : Nat} {c : Char} (h : c ∈ Text.decimal n) :
    Shell.isPlain c = true := by
  have hdigit := Text.isDigit_of_mem_decimal h
  rw [Char.isDigit, Bool.and_eq_true, decide_eq_true_eq, decide_eq_true_eq] at hdigit
  have hzero : '0' ≤ c := hdigit.1
  have hnine : c ≤ '9' := hdigit.2
  simp [Shell.isPlain, Text.isAsciiAlphanumeric, hzero, hnine]

theorem words_readRemoteFile (path : Text) :
    Shell.words ("cat -- ".toList ++ shellSingleQuote path) =
      some ["cat".toList, "--".toList, path] := by
  have hjoin : "cat -- ".toList ++ shellSingleQuote path =
      List.intercalate [' '] ["cat".toList, "--".toList, shellSingleQuote path] := by
    simp [List.intercalate]
  rw [hjoin]
  apply Shell.words_intercalate
  refine .cons ?_ (.cons ?_ (.cons (spells_shellSingleQuote path) .nil))
  · exact Shell.spells_plain (by decide) (by decide)
  · exact Shell.spells_plain (by decide) (by decide)

theorem words_spawnTail (path : Text) (n : Nat) :
    Shell.words ("tail -c +".toList ++ Text.decimal n ++ " -F ".toList ++ shellSingleQuote path) =
      some ["tail".toList, "-c".toList, '+' :: Text.decimal n, "-F".toList, path] := by
  have hjoin : "tail -c +".toList ++ Text.decimal n ++ " -F ".toList ++ shellSingleQuote path =
      List.intercalate [' ']
        ["tail".toList, "-c".toList, '+' :: Text.decimal n, "-F".toList,
          shellSingleQuote path] := by
    simp [List.intercalate]
  rw [hjoin]
  apply Shell.words_intercalate
  refine .cons ?_ (.cons ?_ (.cons ?_ (.cons ?_ (.cons (spells_shellSingleQuote path) .nil))))
  · exact Shell.spells_plain (by decide) (by decide)
  · exact Shell.spells_plain (by decide) (by decide)
  · apply Shell.spells_plain (List.cons_ne_nil _ _)
    intro c hc
    rcases List.mem_cons.mp hc with rfl | hc
    · decide
    · exact isPlain_of_mem_decimal hc
  · exact Shell.spells_plain (by decide) (by decide)

/-! ## What a run is given -/

/-- The values of the option that sets how a run is made, each with its name. -/
def pinnedValues (knownHosts : Text) : List (Text × Text) :=
  [("StrictHostKeyChecking".toList, "yes".toList),
    ("UserKnownHostsFile".toList, knownHosts),
    ("GlobalKnownHostsFile".toList, "/dev/null".toList),
    ("BatchMode".toList, "yes".toList),
    ("PasswordAuthentication".toList, "no".toList),
    ("KbdInteractiveAuthentication".toList, "no".toList),
    ("IdentitiesOnly".toList, "yes".toList)]

/-- A run under the pin of one remote command: the options of the pin and no others, the identity,
the port, the destination, and an argument that the remote shell reads as just these words. -/
def RunsUnderPin (target : SshTarget) (knownHosts : Text) (args words : List Text) : Prop :=
  ∃ command, args =
      ((pinnedValues knownHosts).flatMap fun v => ["-o".toList, v.1 ++ '=' :: v.2]) ++
        ["-i".toList, target.identityFile, "-p".toList, Text.decimal target.port,
          target.user ++ '@' :: target.host, command] ∧
    command.head? ≠ some '-' ∧ Shell.words command = some words

theorem runsUnderPin_runArgs {command : Text} {words : List Text}
    (hcommand : command.head? ≠ some '-') (hwords : Shell.words command = some words) :
    RunsUnderPin target knownHosts (runArgs target knownHosts command) words := by
  refine ⟨command, ?_, hcommand, hwords⟩
  have hknown : "UserKnownHostsFile=".toList ++ knownHosts =
      "UserKnownHostsFile".toList ++ '=' :: knownHosts := by
    simp
  rw [runArgs, baseSshArgs, hknown]
  rfl

/-- A host that a line of the pinned file can name. -/
def Nameable (host : Text) : Prop := ' ' ∉ host ∧ host.head? ≠ some '['

theorem blank_notMem_decimal (n : Nat) : ' ' ∉ Text.decimal n := fun h =>
  absurd (Text.isDigit_of_mem_decimal h) (by decide)

theorem colon_notMem_decimal (n : Nat) : ':' ∉ Text.decimal n := fun h =>
  absurd (Text.isDigit_of_mem_decimal h) (by decide)

/-- A bracketed host with its port is that of one host and one port. -/
theorem bracketed_inj {host host' : Text} {port port' : Nat}
    (h : '[' :: host ++ "]:".toList ++ Text.decimal port =
      '[' :: host' ++ "]:".toList ++ Text.decimal port') : host = host' ∧ port = port' := by
  have hreversed := congrArg List.reverse h
  simp only [List.reverse_append, List.reverse_cons] at hreversed
  have hcut := @Text.append_cons_inj ':' (Text.decimal port).reverse _
    (Text.decimal port').reverse _
    (fun hmem => colon_notMem_decimal port (List.mem_reverse.mp hmem))
    (fun hmem => colon_notMem_decimal port' (List.mem_reverse.mp hmem)) hreversed
  have hhost : host.reverse = host'.reverse :=
    List.append_cancel_right (List.cons.inj hcut.2).2
  exact ⟨List.reverse_injective hhost, Text.decimal_injective (List.reverse_injective hcut.1)⟩

/-- The pin of a target is that of no other host or port, and of no other key. -/
theorem knownHostsLine_eq_iff {target' : SshTarget} (hhost : Nameable target.host)
    (hhost' : Nameable target'.host) :
    knownHostsLine target = knownHostsLine target' ↔
      target.host = target'.host ∧ target.port = target'.port ∧
        Text.trim target.pinnedHostKey = Text.trim target'.pinnedHostKey := by
  have hfield : ∀ t : SshTarget, Nameable t.host → ' ' ∉ (if t.port = 22 then t.host
      else '[' :: t.host ++ "]:".toList ++ Text.decimal t.port) := by
    intro t ht hmem
    split at hmem
    · exact ht.1 hmem
    · rcases List.mem_append.mp hmem with hleft | hport
      · rcases List.mem_append.mp hleft with hhost | hmark
        · exact ht.1 ((List.mem_cons.mp hhost).resolve_left (by decide))
        · exact absurd hmark (by decide)
      · exact blank_notMem_decimal t.port hport
  constructor
  · intro h
    have hline : ∀ t : SshTarget, knownHostsLine t = (if t.port = 22 then t.host
        else '[' :: t.host ++ "]:".toList ++ Text.decimal t.port) ++
          ' ' :: (Text.trim t.pinnedHostKey ++ ['\n']) := fun t => List.append_assoc _ _ _
    rw [hline, hline] at h
    obtain ⟨hfields, hkeys⟩ :=
      Text.append_cons_inj (hfield target hhost) (hfield target' hhost') h
    refine ⟨?_, ?_, List.append_cancel_right hkeys⟩ <;> split at hfields <;> split at hfields
    · exact hfields
    · exact absurd (congrArg List.head? hfields) hhost.2
    · exact absurd (congrArg List.head? hfields).symm hhost'.2
    · exact (bracketed_inj hfields).1
    · next hport hport' => exact hport.trans hport'.symm
    · exact absurd (congrArg List.head? hfields) hhost.2
    · exact absurd (congrArg List.head? hfields).symm hhost'.2
    · exact (bracketed_inj hfields).2
  · rintro ⟨hname, hport, hkey⟩
    rw [knownHostsLine, knownHostsLine, hname, hport, hkey]

/-- What is so of the runs that name a remote path, and of the pin they are made under. -/
structure PathExact (target : SshTarget) (knownHosts path : Text) (offset : Nat) : Prop where
  read : RunsUnderPin target knownHosts (readRemoteFileArgs target knownHosts path)
    ["cat".toList, "--".toList, path]
  /-- The first byte is the one behind the offset, as far as 64 bits go. -/
  tail : RunsUnderPin target knownHosts (spawnTailArgs target knownHosts path offset)
    ["tail".toList, "-c".toList, '+' :: Text.decimal (min (offset + 1) (2 ^ 64 - 1)), "-F".toList,
      path]
  /-- The destination can be taken for an option just where the user begins with a dash. -/
  destination : (target.user ++ '@' :: target.host).head? = some '-' ↔
    target.user.head? = some '-'
  pin : ∀ other : SshTarget, Nameable target.host → Nameable other.host →
    (knownHostsLine target = knownHostsLine other ↔ target.host = other.host ∧
      target.port = other.port ∧
        Text.trim target.pinnedHostKey = Text.trim other.pinnedHostKey)

/-- A remote path is always one word of its command, and nothing else of the arguments: the commands
are run under the pin, and read as written. -/
theorem remote_path_exact (target : SshTarget) (knownHosts path : Text) (offset : Nat) :
    PathExact target knownHosts path offset where
  read := runsUnderPin_runArgs (by simp) (words_readRemoteFile path)
  tail := runsUnderPin_runArgs (by simp) (words_spawnTail path (min (offset + 1) u64Max))
  destination := by
    cases target.user with
    | nil => simp
    | cons c user => rfl
  pin := fun _ => knownHostsLine_eq_iff

end Genaryx.Remote
