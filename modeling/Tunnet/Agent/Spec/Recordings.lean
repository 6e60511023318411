import Tunnet.Agent.Recorder
import Tunnet.Util.Run

/-!
# Recordings of different peers

A peer chooses the id of the session whose recording it sends, and with it the name of the file.
Streams of several peers take their steps in any order.

* `Undisplaced`: files are created in the recordings directory only, and no peer's stream gets at
  the file or the row of another peer's recording.
* `Orderly`: what holds between the steps of the streams.
-/

namespace Tunnet.Recorder

open FileTree List

section

variable {env : Env} {s s' : Store} {h : List (StreamCall × StreamReply)} {info : RecordingMeta}
  {reply : StreamReply} {d d' : FileDisk} {denies : Loc String → Bool} {sink : StreamCastSink}
  {call : StreamCall} {content : Bytes} {peer sessionId n : String} {l m x : Loc String} {k : ℕ}

/-- The place of the recordings directory. -/
def Env.place (env : Env) : Loc String := Loc.walk (env.dir.base env.cwd) env.dir.parts

/-- What peers cannot do to each other's recordings. -/
structure Undisplaced (dir : Loc String) (h : List (StreamCall × StreamReply)) : Prop where
  inside : ∀ call peer place, (call, .created peer place) ∈ h → ∃ n, place = dir ++ [n]
  files : ∀ call peer call' peer' place, (call, .created peer place) ∈ h →
    (call', .created peer' place) ∈ h → peer = peer'
  rows : ∀ call peer call' peer' sessionId, (call, .indexed peer sessionId) ∈ h →
    (call', .indexed peer' sessionId) ∈ h → peer = peer'

/-- A session is a name, and no other peer has used it. -/
def Proper (h : List (StreamCall × StreamReply)) : StreamCall → Prop
  | .begin peer info => '/' ∉ info.sessionId.toList ∧ ∀ peer' info' reply,
      (.begin peer' info', reply) ∈ h → info'.sessionId = info.sessionId → peer' = peer
  | _ => True

/-! ### Files -/

/-- The name of a cast. -/
def castName (sessionId : String) : String := sessionId ++ ".cast"

theorem castName_injective : Function.Injective castName := by
  intro a b hab
  have hlist := congrArg String.toList hab
  rw [castName, castName, String.toList_append, String.toList_append] at hlist
  exact String.toList_inj.1 (append_cancel_right hlist)

theorem isName_castName (hslash : '/' ∉ sessionId.toList) : IsName (castName sessionId) := by
  have hlist : (castName sessionId).toList = sessionId.toList ++ ['.', 'c', 'a', 's', 't'] := by
    rw [castName, String.toList_append]
    rfl
  have hlength : 5 ≤ (castName sessionId).toList.length := by
    rw [hlist]
    simp
  refine ⟨?_, ?_, ?_, ?_⟩
  · rw [hlist]
    simpa using hslash
  all_goals
    intro heq
    rw [heq] at hlength
    exact absurd hlength (by decide)

theorem castPath_of_name (hslash : '/' ∉ info.sessionId.toList) : castPath env info =
      ⟨env.dir.absolute, env.dir.parts ++ [.down (castName info.sessionId)], false⟩ :=
  Path.join_name env.dir (isName_castName hslash)

theorem write_eq_error {e : IoError}
    (h : d.write denies l n content = (d', .error e)) : d' = d := by
  unfold Disk.write at h
  split_ifs at h <;> cases h <;> rfl

theorem createFile_cases (env : Env) (d : FileDisk) (path : Path) :
    (∃ e, createFile env d path = (d, .error e)) ∨ ∃ l n,
      path.parts.getLast? = some (.down n) ∧
      d.tree.resolve (path.base env.cwd) path.parts.dropLast = some l ∧
      createFile env d path = ((d.write env.denies l n []).1, .ok (l, n)) := by
  unfold createFile
  by_cases hnul : Path.hasNul path.parts
  · rw [if_pos hnul]
    exact .inl ⟨_, rfl⟩
  rw [if_neg hnul]
  split
  · rename_i n hlast
    split
    · rename_i l hresolve
      by_cases hdir : path.dirOnly
      · rw [if_pos hdir]
        exact .inl ⟨_, rfl⟩
      rw [if_neg hdir]
      split
      · rename_i d' hwrite
        refine .inr ⟨l, n, hlast, hresolve, ?_⟩
        rw [hwrite]
      · rename_i d' e hwrite
        rw [write_eq_error hwrite]
        exact .inl ⟨e, rfl⟩
    · exact .inl ⟨_, rfl⟩
  · exact .inl ⟨_, rfl⟩

theorem resolve_write {ps : List (FileTree.Part String)} (h : d.tree.resolve x ps = some m) :
    (d.write denies l n content).1.tree.resolve x ps = some m := by
  obtain ⟨hx, htrail, hm⟩ := Tree.resolve_eq_some_iff.1 h
  exact Tree.resolve_eq_some_iff.2 ⟨isDir_write hx, fun y hy => isDir_write (htrail y hy), hm⟩

/-! ### Runs -/

/-- What holds between the steps of the streams. -/
structure Orderly (env : Env) (h : List (StreamCall × StreamReply)) (s : Store) : Prop where
  resolves : s.disk.tree.resolve (env.dir.base env.cwd) env.dir.parts = some env.place
  own : ∀ peer info reply peer' info' reply', (.begin peer info, reply) ∈ h →
    (.begin peer' info', reply') ∈ h → info.sessionId = info'.sessionId → peer = peer'
  created : ∀ call peer place, (call, .created peer place) ∈ h → ∃ info reply,
    (.begin peer info, reply) ∈ h ∧ place = env.place ++ [castName info.sessionId]
  sinks : ∀ sink, some sink ∈ s.sinks → ∃ reply, (.begin sink.peer sink.info, reply) ∈ h
  indexed : ∀ call peer sessionId, (call, .indexed peer sessionId) ∈ h → ∃ info reply,
    (.begin peer info, reply) ∈ h ∧ info.sessionId = sessionId

theorem Orderly.undisplaced (hs : Orderly env h s) : Undisplaced env.place h := by
  constructor
  · intro call peer place hmem
    obtain ⟨info, reply, -, hplace⟩ := hs.created call peer place hmem
    exact ⟨_, hplace⟩
  · intro call peer call' peer' place hmem hmem'
    obtain ⟨info, reply, hbegin, rfl⟩ := hs.created call peer place hmem
    obtain ⟨info', reply', hbegin', hplace⟩ := hs.created call' peer' _ hmem'
    have hname : castName info.sessionId = castName info'.sessionId :=
      singleton_inj.1 (append_cancel_left hplace)
    exact hs.own _ _ _ _ _ _ hbegin hbegin' (castName_injective hname)
  · intro call peer call' peer' sessionId hmem hmem'
    obtain ⟨info, reply, hbegin, rfl⟩ := hs.indexed call peer sessionId hmem
    obtain ⟨info', reply', hbegin', hsession⟩ := hs.indexed call' peer' _ hmem'
    exact hs.own _ _ _ _ _ _ hbegin hbegin' hsession.symm

theorem Orderly.extend (hs : Orderly env h s)
    (hresolves : s'.disk.tree.resolve (env.dir.base env.cwd) env.dir.parts = some env.place)
    (hown : ∀ peer info, call = .begin peer info → Proper h call)
    (hsinks : ∀ sink, some sink ∈ s'.sinks →
      ∃ reply', (.begin sink.peer sink.info, reply') ∈ (call, reply) :: h)
    (hcreated : ∀ peer place, reply = .created peer place → ∃ info,
      call = .begin peer info ∧ place = env.place ++ [castName info.sessionId])
    (hindexed : ∀ peer sessionId, reply = .indexed peer sessionId → ∃ info reply',
      (.begin peer info, reply') ∈ h ∧ info.sessionId = sessionId) :
    Orderly env ((call, reply) :: h) s' := by
  refine ⟨hresolves, ?_, ?_, hsinks, ?_⟩
  · intro peer info reply' peer' info' reply'' hmem hmem' hsession
    rcases mem_cons.1 hmem with heq | hold
    · cases heq
      rcases mem_cons.1 hmem' with heq | hold'
      · cases heq
        rfl
      · exact ((hown _ _ rfl).2 _ _ _ hold' hsession.symm).symm
    · rcases mem_cons.1 hmem' with heq | hold'
      · cases heq
        exact (hown _ _ rfl).2 _ _ _ hold hsession
      · exact hs.own _ _ _ _ _ _ hold hold' hsession
  · intro call' peer place hmem
    rcases mem_cons.1 hmem with heq | hold
    · obtain ⟨info, rfl, hplace⟩ := hcreated peer place (congrArg Prod.snd heq).symm
      exact ⟨info, reply, mem_cons_self, hplace⟩
    · obtain ⟨info, reply', hbegin, hplace⟩ := hs.created call' peer place hold
      exact ⟨info, reply', mem_cons_of_mem _ hbegin, hplace⟩
  · intro call' peer sessionId hmem
    obtain ⟨info, reply', hbegin, hsession⟩ := (mem_cons.1 hmem).elim
      (fun heq => hindexed peer sessionId (congrArg Prod.snd heq).symm)
      (hs.indexed call' peer sessionId)
    exact ⟨info, reply', mem_cons_of_mem _ hbegin, hsession⟩

theorem Orderly.quiet (hs : Orderly env h s) (hcall : ∀ peer info, call ≠ .begin peer info)
    (hresolves : s'.disk.tree.resolve (env.dir.base env.cwd) env.dir.parts = some env.place)
    (hsinks : ∀ sink, some sink ∈ s'.sinks →
      ∃ sink', some sink' ∈ s.sinks ∧ sink'.peer = sink.peer ∧ sink'.info = sink.info)
    (hcreated : ∀ peer place, reply ≠ .created peer place)
    (hindexed : ∀ peer sessionId, reply = .indexed peer sessionId →
      ∃ sink, some sink ∈ s.sinks ∧ sink.peer = peer ∧ sink.info.sessionId = sessionId) :
    Orderly env ((call, reply) :: h) s' := by
  refine hs.extend hresolves (fun peer info heq => absurd heq (hcall peer info)) ?_
    (fun peer place heq => absurd heq (hcreated peer place)) ?_
  · intro sink hsink
    obtain ⟨sink', hsink', hpeer, hinfo⟩ := hsinks sink hsink
    obtain ⟨reply', hbegin⟩ := hs.sinks sink' hsink'
    rw [hpeer, hinfo] at hbegin
    exact ⟨reply', mem_cons_of_mem _ hbegin⟩
  · intro peer sessionId heq
    obtain ⟨sink, hsink, rfl, rfl⟩ := hindexed peer sessionId heq
    obtain ⟨reply', hbegin⟩ := hs.sinks sink hsink
    exact ⟨sink.info, reply', hbegin, rfl⟩

theorem mem_set_sinks {o : Option StreamCastSink}
    (hmem : some sink ∈ s.sinks.set k o) : some sink ∈ s.sinks ∨ o = some sink := by
  rcases mem_or_eq_of_mem_set hmem with hmem | heq
  · exact .inl hmem
  · exact .inr heq.symm

theorem mem_sinks (hk : s.sinks[k]?.join = some sink) : some sink ∈ s.sinks := by
  rw [Option.join_eq_some_iff] at hk
  exact mem_of_getElem? hk

variable (hs : Orderly env h s)

include hs

theorem Orderly.begins (hproper : Proper h (.begin peer info))
    (hresolves : s'.disk.tree.resolve (env.dir.base env.cwd) env.dir.parts = some env.place)
    (hsinks : ∀ sink, some sink ∈ s'.sinks →
      some sink ∈ s.sinks ∨ sink.peer = peer ∧ sink.info = info)
    (hcreated : ∀ peer' place, reply = .created peer' place →
      peer' = peer ∧ place = env.place ++ [castName info.sessionId])
    (hindexed : ∀ peer' sessionId, reply ≠ .indexed peer' sessionId) :
    Orderly env ((.begin peer info, reply) :: h) s' := by
  refine hs.extend hresolves (fun _ _ _ => hproper) (fun sink hsink => ?_) (fun _ _ heq => ?_)
    fun peer' sessionId heq => absurd heq (hindexed peer' sessionId)
  · rcases hsinks sink hsink with hold | ⟨rfl, rfl⟩
    · obtain ⟨reply', hbegin⟩ := hs.sinks sink hold
      exact ⟨reply', mem_cons_of_mem _ hbegin⟩
    · exact ⟨reply, mem_cons_self⟩
  · obtain ⟨rfl, hplace⟩ := hcreated _ _ heq
    exact ⟨info, rfl, hplace⟩

theorem Orderly.begin (hproper : Proper h (.begin peer info)) :
    Orderly env ((.begin peer info, (s.begin env peer info).2) :: h) (s.begin env peer info).1 := by
  rcases createFile_cases env s.disk (castPath env info) with
    ⟨e, heq⟩ | ⟨l, n, hlast, hresolve, heq⟩
  · have hbegin : s.begin env peer info = (s, .refused e) := by
      rw [Store.begin, beginStreamSink, heq]
    rw [hbegin]
    exact hs.begins hproper hs.resolves (fun _ hsink => .inl hsink) (by simp) (by simp)
  · rw [castPath_of_name hproper.1, getLast?_concat] at hlast
    obtain rfl : castName info.sessionId = n := Part.down.inj (Option.some.inj hlast)
    have hl : l = env.place := by
      rw [castPath_of_name hproper.1, dropLast_concat] at hresolve
      exact Option.some.inj (hresolve.symm.trans hs.resolves)
    subst hl
    have hbegin : s.begin env peer info =
        ({ s with
            disk := (s.disk.write env.denies env.place (castName info.sessionId) []).1
            sinks := s.sinks ++ [some ⟨peer, info, castPath env info, env.place,
              castName info.sessionId, []⟩] },
          .created peer (env.place ++ [castName info.sessionId])) := by
      rw [Store.begin, beginStreamSink, heq]
    rw [hbegin]
    refine hs.begins hproper (resolve_write hs.resolves) (fun sink hsink => ?_) ?_ (by simp)
    · rcases mem_append.1 hsink with hold | hnew
      · exact .inl hold
      · obtain rfl := Option.some.inj (mem_singleton.1 hnew)
        exact .inr ⟨rfl, rfl⟩
    · rintro peer' place heq
      cases heq
      exact ⟨rfl, rfl⟩

theorem Orderly.data (k : ℕ) (bytes : Bytes) :
    Orderly env ((.data k bytes, (s.data k bytes).2) :: h) (s.data k bytes).1 := by
  unfold Store.data
  split
  · rename_i sink hk
    refine hs.quiet (by simp) (resolve_write hs.resolves) (fun sink' hsink' => ?_) (by simp)
      (by simp)
    rcases mem_set_sinks hsink' with hold | hnew
    · exact ⟨sink', hold, rfl, rfl⟩
    · cases hnew
      exact ⟨sink, mem_sinks hk, rfl, rfl⟩
  · exact hs.quiet (by simp) hs.resolves (fun sink' hsink' => ⟨sink', hsink', rfl, rfl⟩) (by simp)
      (by simp)

theorem Orderly.finish (k durationMs : ℕ) (now : ℤ) :
    Orderly env ((.finish k durationMs now, (s.finish env k durationMs now).2) :: h)
      (s.finish env k durationMs now).1 := by
  unfold Store.finish
  split
  · rename_i sink hk
    refine hs.quiet ?_ ?_ (fun sink' hsink' => ?_) ?_ ?_
    · simp
    · exact hs.resolves
    · rcases mem_set_sinks hsink' with hold | hnew
      · exact ⟨sink', hold, rfl, rfl⟩
      · cases hnew
    · simp
    · rintro peer sessionId heq
      cases heq
      exact ⟨sink, mem_sinks hk, rfl, rfl⟩
  · exact hs.quiet (by simp) hs.resolves (fun sink' hsink' => ⟨sink', hsink', rfl, rfl⟩) (by simp)
      (by simp)

theorem Orderly.broken (k : ℕ) :
    Orderly env ((.broken k, .none) :: h) { s with sinks := s.sinks.set k none } := by
  refine hs.quiet ?_ ?_ (fun sink hsink => ?_) ?_ ?_
  · simp
  · exact hs.resolves
  · rcases mem_set_sinks hsink with hold | hnew
    · exact ⟨sink, hold, rfl, rfl⟩
    · cases hnew
  · simp
  · simp

omit hs

theorem orderly_openStore (hcwd : d.tree.IsDir (env.dir.base env.cwd))
    (hopen : Store.openStore env d = .ok s) : Orderly env [] s := by
  unfold Store.openStore at hopen
  split at hopen
  · rename_i d' hdirs
    obtain rfl := Except.ok.inj hopen
    obtain ⟨-, hmake⟩ := Path.createDirAll_eq_ok hdirs
    have hresolve := resolve_makeDirs hcwd (congrArg Prod.snd hmake)
    rw [hmake] at hresolve
    exact ⟨hresolve, by simp, by simp, by simp, by simp⟩
  · cases hopen

/-- Recordings do not displace each other in a run whose sessions are all `Proper`. -/
theorem recordings_undisplaced {d : FileDisk} {s₀ : Store}
    (hcwd : d.tree.IsDir (env.dir.base env.cwd)) (hopen : Store.openStore env d = .ok s₀)
    (hrun : Run (Store.step env) (fun h _ call => Proper h call) s₀ h s) :
    Undisplaced env.place h := by
  have horderly : Orderly env h s := by
    refine hrun.invariant (orderly_openStore hcwd hopen) ?_
    intro h s call hs hproper
    cases call with
    | begin => exact hs.begin hproper
    | data k bytes => exact hs.data k bytes
    | finish k durationMs now => exact hs.finish k durationMs now
    | broken k => exact hs.broken k
  exact horderly.undisplaced

end

namespace Demo

/-- A root with the directory of the recordings and nothing else. -/
def disk : FileDisk := ⟨.branch ["rec"] (List.cons_ne_nil _ _) .dir, [], []⟩

def env : Env where
  cwd := []
  dir := ⟨true, [.down "rec"], false⟩
  denies _ := false
  sha256Hex _ := ""

def session (id : String) : RecordingMeta := ⟨id, "", none, "", "", ""⟩

def store : Store := ⟨disk, [], []⟩

def after (calls : List StreamCall) : List (StreamCall × StreamReply) × Store :=
  exec (Store.step env) [] store calls

theorem openStore_eq : Store.openStore env disk = .ok store := by
  rfl

/-- Two peers record a session each. -/
def two : List StreamCall :=
  [.begin "a" (session "s"), .begin "b" (session "t"), .data 0 [1], .finish 0 5 0, .finish 1 5 0]

theorem recordings_undisplaced_two : (after two).1.length = 5 ∧
    Undisplaced ["rec"] (after two).1 := by
  have hmeets : Meets (Store.step env) (fun h _ call => Proper h call) [] store two := by
    refine ⟨⟨by decide, by simp⟩, ⟨by decide, fun peer info reply hmem hsession => ?_⟩, trivial,
      trivial, trivial, trivial⟩
    cases mem_singleton.1 hmem
    exact absurd hsession (by decide)
  have hrun := recordings_undisplaced (by decide) openStore_eq (run_exec hmeets)
  exact ⟨rfl, hrun⟩

/-- The second peer names a place above the directory. -/
def climbing : List StreamCall := [.begin "b" (session "../profile")]

/-- The second peer takes the session of the first. -/
def taking : List StreamCall :=
  [.begin "a" (session "s"), .finish 0 5 0, .begin "b" (session "s"), .finish 1 5 0]

theorem climbing_created :
    (.begin "b" (session "../profile"), .created "b" ["profile.cast"]) ∈ (after climbing).1 := by
  decide

theorem taking_indexed : (.finish 0 5 0, .indexed "a" "s") ∈ (after taking).1 ∧
    (.finish 1 5 0, .indexed "b" "s") ∈ (after taking).1 := by
  decide

/-- A peer creates a file beside the recordings directory, and truncates and replaces a recording of
another peer. -/
theorem recordings_displaced : ¬ Undisplaced env.place (after climbing).1 ∧
    ¬ Undisplaced env.place (after taking).1 := by
  constructor
  · intro h
    obtain ⟨n, hn⟩ := h.inside _ _ _ climbing_created
    have hlength := congrArg length hn
    exact absurd hlength (by simp [env, Env.place, Loc.walk, Loc.step])
  · intro h
    exact absurd (h.rows _ _ _ _ _ taking_indexed.1 taking_indexed.2) (by decide)

end Demo

end Tunnet.Recorder
