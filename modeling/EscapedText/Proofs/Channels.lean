import EscapedText.Command.World

/-!
What channels hold and keep. An output that has been made ready is empty if it is a file; what is
written to it is kept there, behind what was written before, and nothing else changes.
-/
namespace EscapedText

namespace Disk

variable {d d' : Disk} {path : Path} {n : Nat}

theorem exists_of_bind {α β : Type} {x : Except Fault α} {f : α → Except Fault β} {b : β}
    (h : (x >>= f) = .ok b) : ∃ a, x = .ok a ∧ f a = .ok b := by
  cases x with
  | error e => contradiction
  | ok a => exact ⟨a, rfl, h⟩

theorem ne_zero_of_get? {e : Option Entry} (h : d.get? n = e) (other : e ≠ some .directory) :
    n ≠ 0 := by
  rintro rfl
  exact other h.symm

/-- An entry that is no file. -/
def Device (e : Entry) : Prop := ∀ bytes, e ≠ .file bytes

/-- What creating has made of a disk: an empty file, but of a device nothing. All other entries are
as they were, and so are all names but a new one for a new entry. -/
structure Made (d : Disk) (n : Nat) (d' : Disk) : Prop where
  made : d'.get? n = some (.file []) ∨ d' = d ∧ ∃ e, d.get? n = some e ∧ Device e
  devices : ∀ e, d.get? n = some e → Device e → d' = d
  others : ∀ k, k ≠ n → d'.get? k = d.get? k
  names : ∀ key, d'.names.lookup key = d.names.lookup key ∨
    d.names.lookup key = none ∧ d.get? n = none ∧ d'.names.lookup key = some n

theorem made_put (h : ∀ e, d.get? n = some e → ∃ bytes, e = .file bytes) :
    Made d n (d.put n (.file [])) := by
  have named : n ≠ 0 := by
    rintro rfl
    obtain ⟨bytes, file⟩ := h .directory rfl
    contradiction
  refine ⟨.inl (get?_put d n _ named), ?_, fun k apart => get?_put_of_ne d n k _ apart,
    fun _ => .inl rfl⟩
  intro e there device
  obtain ⟨bytes, file⟩ := h e there
  exact absurd file (device bytes)

theorem made_add {directory : Nat} {name : Path} (h : d.names.lookup (directory, name) = none) :
    Made d d.fresh (d.add directory name (.file [])) := by
  have put := made_put (d := d) (n := d.fresh) (by simp [get?_fresh])
  refine ⟨.inl (get?_put d _ _ (Nat.succ_ne_zero _)), by simp [get?_fresh], put.others, ?_⟩
  intro key
  by_cases same : key = (directory, name)
  · subst same
    exact .inr ⟨h, get?_fresh d, List.lookup_cons_self⟩
  · have apart : (key == (directory, name)) = false := by simpa using same
    left
    rw [add, List.lookup_cons, apart]

theorem lookup_of_child? {directory : Nat} {name : Path} {found : Option Nat}
    (h : d.child? directory name = .ok found) (missing : found = none) :
    d.names.lookup (directory, name) = none := by
  subst missing
  obtain ⟨-, -, h⟩ := exists_of_bind h
  split at h
  · cases h
  · split at h
    · cases h
    · split at h
      · cases h
      · exact Except.ok.inj h

theorem clear_made (h : d.clear n = .ok d') : Made d n d' := by
  unfold clear at h
  cases there : d.get? n with
  | none =>
    rw [there] at h
    cases h
    exact made_put (by simp [there])
  | some e =>
    rw [there] at h
    cases e with
    | directory => contradiction
    | file bytes =>
      obtain ⟨-, -, h⟩ := exists_of_bind h
      cases h
      exact made_put (by simp [there])
    | void | full | inflow bytes | stream s =>
      obtain ⟨-, -, h⟩ := exists_of_bind h
      cases h
      exact ⟨.inr ⟨rfl, _, there, nofun⟩, fun _ _ _ => rfl, fun _ _ => rfl, fun _ => .inl rfl⟩

theorem createIn_made {directory : Nat} {name : Path}
    (h : d.createIn directory name = .ok (n, d')) : Made d n d' := by
  obtain ⟨found, child, h⟩ := exists_of_bind h
  cases found with
  | none =>
    obtain ⟨-, -, h⟩ := exists_of_bind h
    cases h
    exact made_add (lookup_of_child? child rfl)
  | some k =>
    obtain ⟨cleared, clear, h⟩ := exists_of_bind h
    cases h
    exact clear_made clear

theorem create_made (h : d.create path = .ok (n, d')) : Made d n d' := by
  obtain ⟨⟨start, names⟩, -, h⟩ := exists_of_bind h
  dsimp only at h
  split at h
  · contradiction
  · obtain ⟨directory, -, h⟩ := exists_of_bind h
    obtain ⟨-, -, h⟩ := exists_of_bind h
    split at h
    · contradiction
    · exact createIn_made h

end Disk

namespace World

/-! Inputs and outputs. -/

def inputOf (w : World) (o : Options) : Except Fault Channel :=
  match o.file? with
  | none => .ok (channelOf w.disk w.standardInput)
  | some path => (w.disk.find path).map (channelOf w.disk)

/-- The output, and the world in which it is ready. -/
def outputOf (w : World) (o : Options) : Except Fault (Channel × World) :=
  match o.output with
  | none => .ok (.stream .output, w)
  | some path =>
    (w.disk.create path).map fun made => (channelOf made.2 made.1, { w with disk := made.2 })

/-- The bytes that an output keeps, if it keeps what it is given and is given nothing else. -/
def kept? (w : World) : Channel → Option (List UInt8)
  | .stream .output => some w.standardOutput
  | .node n =>
    match w.disk.get? n with
    | some (.file bytes) => some bytes
    | _ => none
  | _ => none

/-- The bytes that an entry holds, if it can be read. -/
def held? (w : World) (n : Nat) : Option (List UInt8) :=
  match w.disk.get? n with
  | some (.file bytes) | some (.inflow bytes) => some bytes
  | some .directory => none
  | _ => some []

/-- Messages may have been given, and no more. -/
structure Untouched (w w' : World) : Prop where
  disk : w'.disk = w.disk
  input : w'.standardInput = w.standardInput
  output : w'.standardOutput = w.standardOutput

/-- Nothing but `out` has changed, messages and names apart, and not even that if it is a
device. -/
structure Confined (out : Channel) (w w' : World) : Prop where
  entries : ∀ n, out ≠ .node n → w'.disk.get? n = w.disk.get? n
  devices : ∀ n e, w.disk.get? n = some e → Disk.Device e → w'.disk.get? n = some e
  output : out ≠ .stream .output → w'.standardOutput = w.standardOutput

/-- Besides, names lead where they led. -/
structure Fed (out : Channel) (w w' : World) : Prop extends Confined out w w' where
  names : w'.disk.names = w.disk.names

/-- Besides, names lead where they led, but that a new one may lead to `out` if it is new. -/
structure Spared (out : Channel) (w w' : World) : Prop extends Confined out w w' where
  names : ∀ key, w'.disk.names.lookup key = w.disk.names.lookup key ∨
    w.disk.names.lookup key = none ∧
      ∃ n, out = .node n ∧ w.disk.get? n = none ∧ w'.disk.names.lookup key = some n

/-- `out` has been made ready in `w` and given `bytes`: a stream behind what it had before, a file
alone. Nothing else has changed. -/
structure Delivered (out : Channel) (bytes : List UInt8) (w w' : World) : Prop
    extends Spared out w w' where
  stream : out = .stream .output → w'.standardOutput = w.standardOutput ++ bytes
  file : ∀ n, out = .node n → w'.disk.get? n = some (.file bytes)

/-- `out` is ready in `w₁`. It is empty if it is a file, and otherwise all is as it was. -/
structure Ready (out : Channel) (w w₁ : World) : Prop where
  spared : Spared out w w₁
  output : w₁.standardOutput = w.standardOutput
  file : ∀ n old, out = .node n → w₁.kept? out = some old → old = []
  other : w₁.kept? out = none → w₁.disk = w.disk

variable {w w₁ w₂ : World} {out c : Channel} {o : Options} {bytes old : List UInt8}

theorem Untouched.refl (w : World) : Untouched w w := ⟨rfl, rfl, rfl⟩

theorem Untouched.trans (h : Untouched w w₁) (h' : Untouched w₁ w₂) : Untouched w w₂ :=
  ⟨h'.disk.trans h.disk, h'.input.trans h.input, h'.output.trans h.output⟩

theorem untouched_tell (message : Message) (w : World) : Untouched w (tell message w) :=
  ⟨rfl, rfl, rfl⟩

theorem kept_untouched (h : Untouched w w₁) (out : Channel) : w₁.kept? out = w.kept? out := by
  cases out with
  | stream s =>
    cases s with
    | output => exact congrArg some h.output
    | reports => rfl
  | full => rfl
  | node n => simp only [kept?, h.disk]

theorem kept_node_iff {n : Nat} :
    w.kept? (.node n) = some bytes ↔ w.disk.get? n = some (.file bytes) := by
  cases found : w.disk.get? n with
  | none => simp [kept?, found]
  | some e => cases e <;> simp [kept?, found]

theorem kept_cases (kept : w.kept? out = some old) :
    out = .stream .output ∧ old = w.standardOutput ∨
      ∃ n, out = .node n ∧ w.disk.get? n = some (.file old) := by
  cases out with
  | stream s =>
    cases s with
    | output => exact .inl ⟨rfl, (Option.some.inj kept).symm⟩
    | reports => contradiction
  | full => contradiction
  | node n => exact .inr ⟨n, rfl, kept_node_iff.mp kept⟩

theorem Confined.refl (out : Channel) (w : World) : Confined out w w :=
  ⟨fun _ _ => rfl, fun _ _ there _ => there, fun _ => rfl⟩

theorem Confined.trans (h : Confined out w w₁) (h' : Confined out w₁ w₂) : Confined out w w₂ := by
  refine ⟨?_, ?_, ?_⟩
  · intro n other
    exact (h'.entries n other).trans (h.entries n other)
  · intro n e there device
    exact h'.devices n e (h.devices n e there device) device
  · intro other
    exact (h'.output other).trans (h.output other)

theorem Untouched.fed (h : Untouched w w₁) (out : Channel) : Fed out w w₁ := by
  refine ⟨⟨?_, ?_, fun _ => h.output⟩, congrArg Disk.names h.disk⟩
  · intro n _
    rw [h.disk]
  · intro n e there _
    rw [h.disk, there]

theorem Fed.refl (out : Channel) (w : World) : Fed out w w := ⟨.refl out w, rfl⟩

theorem Fed.trans (h : Fed out w w₁) (h' : Fed out w₁ w₂) : Fed out w w₂ :=
  ⟨h.toConfined.trans h'.toConfined, h'.names.trans h.names⟩

theorem Spared.refl (out : Channel) (w : World) : Spared out w w :=
  ⟨.refl out w, fun _ => .inl rfl⟩

theorem Spared.fed (h : Spared out w w₁) (h' : Fed out w₁ w₂) : Spared out w w₂ := by
  refine ⟨h.toConfined.trans h'.toConfined, ?_⟩
  intro key
  rw [h'.names]
  exact h.names key

/-! Writing. -/

theorem push_kept (kept : w.kept? out = some old) (bytes : List UInt8) :
    (push out bytes w).kept? out = some (old ++ bytes) := by
  rcases kept_cases kept with ⟨rfl, rfl⟩ | ⟨n, rfl, file⟩
  · rfl
  · have named := Disk.ne_zero_of_get? file nofun
    apply kept_node_iff.mpr
    simp only [push, Disk.append, file]
    exact Disk.get?_put _ _ _ named

theorem push_fed (out : Channel) (bytes : List UInt8) (w : World) :
    Fed out w (push out bytes w) := by
  cases out with
  | stream s =>
    cases s with
    | output =>
      exact ⟨⟨fun _ _ => rfl, fun _ _ there _ => there, fun other => absurd rfl other⟩, rfl⟩
    | reports => exact ⟨⟨fun _ _ => rfl, fun _ _ there _ => there, fun _ => rfl⟩, rfl⟩
  | full => exact .refl _ _
  | node n =>
    unfold push Disk.append
    dsimp only
    split
    · rename_i old file
      refine ⟨⟨?_, ?_, fun _ => rfl⟩, rfl⟩
      · intro k other
        apply Disk.get?_put_of_ne
        rintro rfl
        exact other rfl
      · intro k e there device
        rw [Disk.get?_put_of_ne, there]
        rintro rfl
        exact device old (Option.some.inj (there.symm.trans file))
    · exact .refl _ _

/-! Making ready. -/

theorem node_of_channelOf {d : Disk} {n k : Nat} (h : channelOf d n = .node k) : n = k := by
  unfold channelOf at h
  split at h
  · contradiction
  · contradiction
  · exact Channel.node.inj h

theorem channelOf_file {d : Disk} {n : Nat} (h : d.get? n = some (.file bytes)) :
    channelOf d n = .node n := by
  rw [channelOf, h]

theorem made_ready {n : Nat} {d : Disk} (h : w.disk.Made n d) :
    Ready (channelOf d n) w { w with disk := d } := by
  rcases h.made with empty | ⟨rfl, e, there, device⟩
  · have channel := channelOf_file empty
    rw [channel]
    refine ⟨⟨⟨?_, ?_, fun _ => rfl⟩, ?_⟩, rfl, ?_, ?_⟩
    · intro k other
      apply h.others
      rintro rfl
      exact other rfl
    · intro k e there device
      by_cases here : k = n
      · subst here
        exact (congrArg (·.get? k) (h.devices e there device)).trans there
      · exact (h.others k here).trans there
    · intro key
      rcases h.names key with same | ⟨unnamed, new, leads⟩
      · exact .inl same
      · exact .inr ⟨unnamed, n, rfl, new, leads⟩
    · intro k old _ kept
      exact (Entry.file.inj (Option.some.inj (empty.symm.trans (kept_node_iff.mp kept)))).symm
    · intro unkept
      rw [kept_node_iff.mpr empty] at unkept
      contradiction
  · refine ⟨.refl _ w, rfl, ?_, fun _ => rfl⟩
    intro k old node kept
    rw [node] at kept
    obtain rfl := node_of_channelOf node
    exact absurd (Option.some.inj (there.symm.trans (kept_node_iff.mp kept))) (device old)

theorem outputOf_ready (made : w.outputOf o = .ok (out, w₁)) : Ready out w w₁ := by
  unfold outputOf at made
  split at made
  · cases made
    exact ⟨.refl _ w, rfl, nofun, fun _ => rfl⟩
  · rename_i path _
    cases create : w.disk.create path with
    | error f =>
      rw [create] at made
      contradiction
    | ok both =>
      rw [create] at made
      cases made
      exact made_ready (Disk.create_made create)

theorem delivered_of_kept (ready : Ready out w w₁) (fed : Fed out w₁ w₂)
    (before : w₁.kept? out = some old) (after : w₂.kept? out = some (old ++ bytes)) :
    Delivered out bytes w w₂ := by
  refine ⟨ready.spared.fed fed, ?_, ?_⟩
  · rintro rfl
    obtain rfl : w₁.standardOutput = old := Option.some.inj before
    rw [← ready.output]
    exact Option.some.inj after
  · rintro n rfl
    obtain rfl := ready.file n old rfl before
    exact kept_node_iff.mp after

/-- An input that is the output has lost what it held, if the output is a file. -/
theorem held_ready (ready : Ready out w w₁) (n : Nat) :
    w₁.held? n = if out = .node n ∧ (w₁.kept? out).isSome then some [] else w.held? n := by
  by_cases here : out = .node n
  · subst here
    cases kept : w₁.kept? (.node n) with
    | none => rw [if_neg (fun both => nomatch both.2), held?, held?, ready.other kept]
    | some old =>
      rw [if_pos ⟨rfl, rfl⟩, held?, kept_node_iff.mp kept]
      exact congrArg some (ready.file n old rfl kept)
  · rw [if_neg (fun both => here both.1), held?, held?, ready.spared.entries n here]

end World
end EscapedText
