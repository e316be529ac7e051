import MemfdBuffer.Lib.Separator
import MemfdBuffer.Proc.Calls

/-!
# Locality metadata

What `HostEndpointManager` makes of the identity of a process, and what equal metadata say of two processes. A look-up
that fails leaves a text in the place of the identity: of the user on Linux, of the process ID on Windows.
-/

namespace MemfdBuffer

open Separator

/-- A security identifier in its string form. -/
structure Sid where
  text : String
  plain : ':' ∉ text.toList

/-- Who a process is on its platform, and which look-ups succeed. -/
inductive Identity
  | linux (hostname : String) (euid : UInt32) (haveHost : Bool)
  | windows (hostname : String) (sid : Sid) (session : UInt32) (haveHost haveSid haveSession : Bool)

/-- A process on one of the hosts. -/
structure Process where
  machine : Nat
  pid : UInt32
  identity : Identity

namespace Process

/-- `HostEndpointManager::metadata_`. -/
def metadata (p : Process) : String :=
  match p.identity with
  | .linux hostname euid haveHost =>
    if haveHost = false then "unknown:" ++ toString euid.toNat
    else hostname ++ ":" ++ toString euid.toNat
  | .windows hostname sid session haveHost haveSid haveSession =>
    let host := if haveHost then hostname else "unknown"
    let sid := if haveSid then sid.text else "unknown"
    let session := if haveSession then session else 0xffffffff
    if !haveHost || !haveSid || !haveSession then "unavailable:" ++ toString p.pid.toNat
    else host ++ ":" ++ sid ++ ":" ++ toString session.toNat

/-- No look-up has failed. -/
def determined (p : Process) : Bool :=
  match p.identity with
  | .linux _ _ haveHost => haveHost
  | .windows _ _ _ haveHost haveSid haveSession => haveHost && haveSid && haveSession

/-- One platform, host name, user and session, and one host if either identity is not known. -/
def SameLocality (p q : Process) : Prop :=
  match p.identity, q.identity with
  | .linux host euid _, .linux host' euid' _ =>
    host = host' ∧ euid = euid' ∧ ((p.determined && q.determined) = false → p.machine = q.machine)
  | .windows host sid session _ _ _, .windows host' sid' session' _ _ _ =>
    host = host' ∧ sid = sid' ∧ session = session' ∧ ((p.determined && q.determined) = false → p.machine = q.machine)
  | _, _ => False

/-- The name that goes into the metadata. -/
def label (p : Process) : String :=
  match p.identity with
  | .linux host _ _ => if p.determined then host else "unknown"
  | .windows host sid _ _ _ _ => if p.determined then host ++ ":" ++ sid.text else "unavailable"

/-- The number after it. -/
def number (p : Process) : Nat :=
  match p.identity with
  | .linux _ euid _ => euid.toNat
  | .windows _ _ session _ _ _ => if p.determined then session.toNat else p.pid.toNat

/-- A Linux process that a Windows process may be taken for. -/
def Poses (host : String) (euid : UInt32) (q : Process) : Prop :=
  match q.identity with
  | .linux _ _ _ => False
  | .windows host' sid session _ _ _ =>
    if q.determined then host = host' ++ ":" ++ sid.text ∧ euid = session else host = "unavailable" ∧ euid = q.pid

/-- What keeps the metadata of two processes from being confused. -/
def Unmistakable (p q : Process) : Prop :=
  match p.identity, q.identity with
  | .linux host euid _, .linux host' euid' _ =>
    p.determined ∧ q.determined ∨ euid ≠ euid' ∨ p.determined ∧ host ≠ "unknown" ∨ q.determined ∧ host' ≠ "unknown" ∨
      host = host' ∧ p.machine = q.machine
  | .windows _ _ _ _ _ _, .windows _ _ _ _ _ _ => p.determined ∨ q.determined ∨ p.pid ≠ q.pid
  | .linux host euid _, .windows _ _ _ _ _ _ => ¬ (p.determined ∧ Poses host euid q)
  | .windows _ _ _ _ _ _, .linux host euid _ => ¬ (q.determined ∧ Poses host euid p)

section
variable {p q : Process}

theorem metadata_eq : p.metadata = p.label ++ ":" ++ toString p.number := by
  unfold metadata label number determined
  cases p.identity with
  | linux host euid haveHost =>
    cases haveHost with
    | false => rfl
    | true => rfl
  | windows host sid session haveHost haveSid haveSession =>
    cases haveHost <;> cases haveSid <;> cases haveSession <;> rfl

theorem metadata_inj : p.metadata = q.metadata ↔ p.label = q.label ∧ p.number = q.number := by
  rw [metadata_eq, metadata_eq]
  constructor
  · intro h
    have hlist := congrArg String.toList h
    simp only [String.toList_append, String.reduceToList, List.append_assoc, List.singleton_append] at hlist
    obtain ⟨hl, hn⟩ := last_inj (notMem_toString rfl _) (notMem_toString rfl _) hlist
    exact ⟨String.toList_inj.1 hl, toList_toString_inj hn⟩
  · rintro ⟨hl, hn⟩
    rw [hl, hn]

/-- A name with a separator is neither of the fixed ones. -/
theorem append_colon_ne {name host sid : String} (h : ':' ∉ name.toList) : host ++ ":" ++ sid ≠ name := by
  rintro rfl
  exact h (by simp)

theorem host_sid_inj {host host' : String} {sid sid' : Sid} (h : host ++ ":" ++ sid.text = host' ++ ":" ++ sid'.text) :
    host = host' ∧ sid = sid' := by
  have hlist := congrArg String.toList h
  simp only [String.toList_append, String.reduceToList, List.append_assoc, List.singleton_append] at hlist
  obtain ⟨hhost, hsid⟩ := last_inj sid.plain sid'.plain hlist
  obtain ⟨text, plain⟩ := sid
  obtain ⟨text', plain'⟩ := sid'
  cases String.toList_inj.1 hsid
  exact ⟨String.toList_inj.1 hhost, rfl⟩

section
variable {host host' : String} {euid euid' session session' : UInt32} {sid sid' : Sid}
  {found found' haveHost haveHost' haveSid haveSid' haveSession haveSession' : Bool}

theorem label_linux (hp : p.identity = .linux host euid found) :
    p.label = (if p.determined then host else "unknown") ∧ p.number = euid.toNat := by
  unfold label number
  rw [hp]
  exact ⟨rfl, rfl⟩

theorem label_windows (hp : p.identity = .windows host sid session haveHost haveSid haveSession) :
    p.label = (if p.determined then host ++ ":" ++ sid.text else "unavailable") ∧
      p.number = if p.determined then session.toNat else p.pid.toNat := by
  unfold label number
  rw [hp]
  exact ⟨rfl, rfl⟩

theorem linux_linux (hp : p.identity = .linux host euid found) (hq : q.identity = .linux host' euid' found') :
    (p.metadata = q.metadata → p.SameLocality q) ↔ p.Unmistakable q := by
  have hsame : p.SameLocality q ↔
      host = host' ∧ euid = euid' ∧ ((p.determined && q.determined) = false → p.machine = q.machine) := by
    unfold SameLocality
    rw [hp, hq]
  have hunmistakable : p.Unmistakable q ↔ p.determined ∧ q.determined ∨ euid ≠ euid' ∨
      p.determined ∧ host ≠ "unknown" ∨ q.determined ∧ host' ≠ "unknown" ∨ host = host' ∧ p.machine = q.machine := by
    unfold Unmistakable
    rw [hp, hq]
  rw [metadata_inj, hsame, hunmistakable, (label_linux hp).1, (label_linux hq).1, (label_linux hp).2,
    (label_linux hq).2, UInt32.toNat_inj]
  cases p.determined <;> cases q.determined <;> simp <;> grind

theorem windows_windows (hp : p.identity = .windows host sid session haveHost haveSid haveSession)
    (hq : q.identity = .windows host' sid' session' haveHost' haveSid' haveSession')
    (hne : p.machine ≠ q.machine ∨ p.pid ≠ q.pid) :
    (p.metadata = q.metadata → p.SameLocality q) ↔ p.Unmistakable q := by
  have hsame : p.SameLocality q ↔ host = host' ∧ sid = sid' ∧ session = session' ∧
      ((p.determined && q.determined) = false → p.machine = q.machine) := by
    unfold SameLocality
    rw [hp, hq]
  have hunmistakable : p.Unmistakable q ↔ p.determined ∨ q.determined ∨ p.pid ≠ q.pid := by
    unfold Unmistakable
    rw [hp, hq]
  rw [metadata_inj, hsame, hunmistakable, (label_windows hp).1, (label_windows hq).1, (label_windows hp).2,
    (label_windows hq).2]
  cases p.determined with
  | true =>
    cases q.determined with
    | true =>
      refine iff_of_true (fun ⟨hl, hn⟩ => ?_) (.inl rfl)
      have hl : host ++ ":" ++ sid.text = host' ++ ":" ++ sid'.text := hl
      obtain ⟨rfl, rfl⟩ := host_sid_inj hl
      exact ⟨rfl, rfl, UInt32.toNat_inj.1 hn, fun hno => by cases hno⟩
    | false =>
      refine iff_of_true (fun ⟨hl, _⟩ => ?_) (.inl rfl)
      have hl : host ++ ":" ++ sid.text = "unavailable" := hl
      exact absurd hl (append_colon_ne (by decide))
  | false =>
    cases q.determined with
    | true =>
      refine iff_of_true (fun ⟨hl, _⟩ => ?_) (.inr (.inl rfl))
      have hl : "unavailable" = host' ++ ":" ++ sid'.text := hl
      exact absurd hl.symm (append_colon_ne (by decide))
    | false =>
      constructor
      · intro h
        refine .inr (.inr fun hpid => ?_)
        obtain ⟨-, -, -, hm⟩ := h ⟨rfl, congrArg UInt32.toNat hpid⟩
        exact hne.elim (fun hno => hno (hm rfl)) fun hno => hno hpid
      · rintro (hno | hno | hpid) ⟨-, hn⟩
        · cases hno
        · cases hno
        · exact absurd (UInt32.toNat_inj.1 hn) hpid

/-- The metadata of a Linux and of a Windows process are equal only if the one poses as the other. -/
theorem linux_windows (hp : p.identity = .linux host euid found)
    (hq : q.identity = .windows host' sid' session' haveHost' haveSid' haveSession') :
    p.metadata = q.metadata ↔ p.determined ∧ Poses host euid q := by
  have hposes : Poses host euid q ↔ if q.determined then host = host' ++ ":" ++ sid'.text ∧ euid = session'
      else host = "unavailable" ∧ euid = q.pid := by
    unfold Poses
    rw [hq]
  rw [metadata_inj, hposes, (label_linux hp).1, (label_linux hp).2, (label_windows hq).1, (label_windows hq).2]
  cases p.determined with
  | true => cases q.determined <;> simp [UInt32.toNat_inj]
  | false =>
    cases q.determined with
    | true =>
      refine iff_of_false (fun ⟨hl, _⟩ => ?_) fun ⟨hno, _⟩ => by cases hno
      have hl : "unknown" = host' ++ ":" ++ sid'.text := hl
      exact append_colon_ne (by decide) hl.symm
    | false =>
      refine iff_of_false (fun ⟨hl, _⟩ => ?_) fun ⟨hno, _⟩ => by cases hno
      have hl : "unknown" = "unavailable" := hl
      exact absurd hl (by decide)

end

/-- Equal metadata are the same locality unless the two processes can be mistaken for each other. -/
theorem metadata_identifies {w : Proc.World} {gid : Proc.GidKey} (hw : w.metadata = p.metadata)
    (hne : p.machine ≠ q.machine ∨ p.pid ≠ q.pid) :
    ((w.onDiscoveringEndpoint gid (some q.metadata)).compatibilityCache gid = some true → p.SameLocality q) ↔
      p.Unmistakable q := by
  have hdeclared : (w.onDiscoveringEndpoint gid (some q.metadata)).compatibilityCache gid = some true ↔
      p.metadata = q.metadata := by
    have hcache : (w.onDiscoveringEndpoint gid (some q.metadata)).compatibilityCache gid =
        some (decide (some q.metadata = some w.metadata)) := Function.update_self ..
    rw [hcache, hw, Option.some.injEq, decide_eq_true_iff, Option.some.injEq]
    exact eq_comm
  rw [hdeclared]
  cases hp : p.identity with
  | linux host euid found =>
    cases hq : q.identity with
    | linux host' euid' found' => exact linux_linux hp hq
    | windows host' sid session haveHost haveSid haveSession =>
      rw [linux_windows hp hq]
      unfold SameLocality Unmistakable
      rw [hp, hq]
  | windows host sid session haveHost haveSid haveSession =>
    cases hq : q.identity with
    | linux host' euid found =>
      rw [eq_comm, linux_windows hq hp]
      unfold SameLocality Unmistakable
      rw [hp, hq]
    | windows host' sid' session' haveHost' haveSid' haveSession' => exact windows_windows hp hq hne

end

/-- A process on a Linux host whose name can be looked up or not. -/
def onLinux (machine : Nat) (host : String) (haveHost : Bool) : Process := ⟨machine, 100, .linux host 1000 haveHost⟩

/-- A failed look-up and a host of another name. -/
theorem metadata_identifies_named : (onLinux 0 "north" true).metadata = "north:1000" ∧
    (onLinux 1 "south" false).metadata = "unknown:1000" ∧
    ((Proc.World.onDiscoveringEndpoint { metadata := (onLinux 0 "north" true).metadata } [1]
        (some (onLinux 1 "south" false).metadata)).compatibilityCache [1] = some true →
      (onLinux 0 "north" true).SameLocality (onLinux 1 "south" false)) := by
  refine ⟨rfl, rfl, (metadata_identifies rfl (.inl (by decide))).2 ?_⟩
  exact .inr (.inr (.inl ⟨rfl, by decide⟩))

/-- Two failed look-ups on two hosts. -/
theorem nameless_match : (Proc.World.onDiscoveringEndpoint { metadata := (onLinux 0 "north" false).metadata } [1]
      (some (onLinux 1 "south" false).metadata)).compatibilityCache [1] = some true ∧
    ¬ (onLinux 0 "north" false).SameLocality (onLinux 1 "south" false) := by
  constructor
  · decide
  · rintro ⟨hhost, -⟩
    exact absurd hhost (by decide)

end Process

end MemfdBuffer
