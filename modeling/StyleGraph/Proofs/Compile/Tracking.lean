import StyleGraph.Compile.Style
import StyleGraph.Proofs.Static.Order

/-!
# What a compilation depends on

A peer may read any file, but it is taken to report what it reads (`Peer.Tracked`): where it
succeeds, its answer is the same on every tree that agrees with this one on the compiled file and
on the files that it reported. The legacy way to compile Sass reports nothing, so it may read the
compiled file only.

`Workspace.compile_of_agree` says the same of compiling a file, whatever its dialect is. For
CSS-in-TS that is no assumption: what an evaluation reads is what it reports.
-/

set_option autoImplicit false

namespace StyleGraph.Compile

variable {tree other : FileTree}

/-! ## Peers -/

/-- A way to compile on one tree and on another: an answer that it gives on the first it gives on
the second too, if the trees agree on the compiled file and on those that it reports. -/
def Tracked {Request : Type} (tree other : FileTree) (path : Request → String)
    (entry entryOther : Request → Except PeerFault Compiled) : Prop :=
  ∀ request compiled, entry request = .ok compiled →
    tree.AgreeOn other (path request :: compiled.loaded) → entryOther request = .ok compiled

/-- The legacy way reports no files. -/
def TrackedLegacy (tree other : FileTree) (entry entryOther : LegacySass) : Prop :=
  ∀ request css, entry request = .finished css → tree.AgreeOn other [request.path] →
    entryOther request = .finished css

/-- All entry points report what they read. -/
structure PeerExports.Tracked (tree other : FileTree)
    (exports exportsOther : PeerExports ModernSass LegacySass LessRender) : Prop where
  modern : Option.Rel (Compile.Tracked tree other SassRequest.path)
    exports.modern exportsOther.modern
  legacy : Option.Rel (TrackedLegacy tree other) exports.legacy exportsOther.legacy
  less : Option.Rel (Compile.Tracked tree other LessRequest.path) exports.less exportsOther.less

/-- A peer on one tree and on another reports what it reads. -/
structure Peer.Tracked (tree other : FileTree) (peer peerOther : Peer) : Prop where
  default : Option.Rel (PeerExports.Tracked tree other) peer.default peerOther.default
  main : PeerExports.Tracked tree other peer.main peerOther.main

/-- Related answers are absent together. -/
theorem isNone_of_rel {α β : Type} {relation : α → β → Prop} {first : Option α}
    {second : Option β} (related : Option.Rel relation first second) :
    first.isNone = second.isNone := by
  cases related <;> rfl

/-- A compiler that offers nothing does so on both sides. -/
theorem PeerExports.Tracked.isEmpty
    {exports exportsOther : PeerExports ModernSass LegacySass LessRender}
    (tracked : PeerExports.Tracked tree other exports exportsOther) :
    exports.isEmpty = exportsOther.isEmpty := by
  unfold PeerExports.isEmpty
  rw [isNone_of_rel tracked.modern, isNone_of_rel tracked.legacy, isNone_of_rel tracked.less]

/-- The same set of entry points counts on both trees. Whether the default export counts depends
only on whether it has entries, which is the same on both trees. -/
theorem Peer.Tracked.exports {peer peerOther : Peer}
    (tracked : Peer.Tracked tree other peer peerOther) :
    PeerExports.Tracked tree other peer.exports peerOther.exports := by
  have defaults := tracked.default
  unfold PeerModule.exports
  generalize peer.default = first, peerOther.default = second at defaults
  cases defaults with
  | none => exact tracked.main
  | some related =>
    simp only [related.isEmpty]
    split
    · exact tracked.main
    · exact related

/-! ## Compilations -/

namespace Workspace

variable {workspace workspaceOther : Workspace}

/-- What a result is made of, if it is an answer. -/
private theorem eq_ok_of_mapError {path : String} {answer : Except PeerFault Compiled}
    {compiled : Compiled} (result : answer.mapError (peerFault path) = .ok compiled) :
    answer = .ok compiled := by
  cases answer with
  | error fault => cases result
  | ok value => cases result; rfl

/-- Two projects that agree on what a Sass file loads compile it to the same. The entry itself
counts as loaded. -/
theorem compileSass_of_agree {isIndented : Bool} {path : String} {compiled : Compiled}
    (cwd : workspace.cwd = workspaceOther.cwd)
    (peers : Option.Rel (Peer.Tracked tree other) (workspace.peer "sass")
      (workspaceOther.peer "sass"))
    (compiles : (workspace.compileSass isIndented path).result = .ok compiled)
    (agree : tree.AgreeOn other (path :: compiled.loaded)) :
    workspaceOther.compileSass isIndented path = workspace.compileSass isIndented path := by
  unfold compileSass at compiles ⊢
  generalize workspace.peer "sass" = first, workspaceOther.peer "sass" = second at *
  cases peers with
  | none => cases compiles
  | @some peer peerOther tracked =>
    obtain ⟨modern, legacy, _⟩ := tracked.exports
    simp only [SassApi.ofModule, ← cwd] at compiles ⊢
    generalize peer.exports.modern = modernFirst, peerOther.exports.modern = modernSecond at *
    generalize peer.exports.legacy = legacyFirst, peerOther.exports.legacy = legacySecond at *
    cases modern with
    | some entries =>
      have answer := eq_ok_of_mapError compiles
      simp only [answer, entries _ _ answer agree]
    | none =>
      cases legacy with
      | none => cases compiles
      | @some entry entryOther entries =>
        simp only at compiles ⊢
        have own : tree.AgreeOn other [path] := fun file mem =>
          agree file (List.mem_cons.mpr (.inl (List.mem_singleton.mp mem)))
        generalize asked : ({ path, loadPaths := loadPaths path workspace.cwd, isIndented } :
          SassRequest) = request at compiles ⊢
        have requested : request.path = path := by rw [← asked]
        cases answer : entry request with
        | finished css => rw [entries request css answer (requested ▸ own)]
        | failed message => rw [answer] at compiles; cases compiles
        | dropped => rw [answer] at compiles; cases compiles

/-- The same for Less, whose one way in is the render function. The source and what the peer loads
are the recorded files, so agreement on these is enough. -/
theorem compileLess_of_agree {path : String} {compiled : Compiled}
    (cwd : workspace.cwd = workspaceOther.cwd)
    (peers : Option.Rel (Peer.Tracked workspace.tree workspaceOther.tree) (workspace.peer "less")
      (workspaceOther.peer "less"))
    (compiles : (workspace.compileLess path).result = .ok compiled)
    (agree : workspace.tree.AgreeOn workspaceOther.tree (path :: compiled.loaded)) :
    workspaceOther.compileLess path = workspace.compileLess path := by
  unfold compileLess at compiles ⊢
  generalize workspace.peer "less" = first, workspaceOther.peer "less" = second at *
  cases peers with
  | none => rfl
  | @some peer peerOther tracked =>
    have less := tracked.exports.less
    simp only [← cwd, ← agree path List.mem_cons_self] at compiles ⊢
    generalize peer.exports.less = lessFirst, peerOther.exports.less = lessSecond at *
    cases less with
    | none => rfl
    | some entries =>
      cases read : workspace.tree.readText path with
      | error cause => rfl
      | ok source =>
        simp only [read] at compiles ⊢
        have answer := eq_ok_of_mapError compiles
        simp only [answer, entries _ _ answer agree]

/-- **A compilation depends on its file and on the files that it reports as loaded**, and on the
shape of the tree, if the peers report what they read. -/
theorem compile_of_agree (same : workspace.tree.SameShape workspaceOther.tree)
    (cwd : workspace.cwd = workspaceOther.cwd)
    (peers : ∀ name, Option.Rel (Peer.Tracked workspace.tree workspaceOther.tree)
      (workspace.peer name) (workspaceOther.peer name))
    {dialect : Dialect} {path : String} {compiled : Compiled}
    (compiles : (workspace.compile dialect path).result = .ok compiled)
    (agree : workspace.tree.AgreeOn workspaceOther.tree (path :: compiled.loaded)) :
    workspaceOther.compile dialect path = workspace.compile dialect path := by
  cases dialect with
  | css => simp only [compile, agree path List.mem_cons_self]
  | scss => exact compileSass_of_agree cwd (peers "sass") compiles agree
  | sass => exact compileSass_of_agree cwd (peers "sass") compiles agree
  | less => exact compileLess_of_agree cwd (peers "less") compiles agree
  | vanilla =>
    simp only [compile] at compiles ⊢
    cases evaluated : Static.evaluateFile workspace.tree path workspace.cwd with
    | error cause => rw [evaluated] at compiles; cases compiles
    | ok sheet =>
      rw [evaluated] at compiles
      cases compiles
      rw [← cwd, Static.evaluateFile_of_agree same evaluated agree]

end Workspace

end StyleGraph.Compile
