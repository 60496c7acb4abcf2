import WarpSocks.FsUtil
import WarpSocks.Health.Heartbeat

/-!
# The heartbeat file on disk

`invalidate`, `record_success` and `check` of `health/heartbeat.rs` over the files of `write_private`.  The
supervisor, or one before it that was killed, and the `healthcheck` command are processes of their own, so a check
may fall between any two operations of a write.  What it finds is the last heartbeat that was written in full
(`check_exact`).
-/

namespace WarpSocks.Health

open FsUtil (Files File World Target Event)

def HEARTBEAT_PATH : Target := .ofName "/tmp" "warp-socks-health" (by decide)

/-- The calls that write the file. -/
inductive Beat where
  | invalidated
  | succeeded (now : SystemTime)

namespace Beat

/-- The text that is written. -/
def text : Beat → String
  | invalidated => invalidate
  | succeeded now => recordSuccess now

/-- The second that it names. -/
def second : Beat → Nat
  | invalidated => 0
  | succeeded now => nowSecs now

end Beat

/-- `std::fs::read_to_string(HEARTBEAT_PATH)`. -/
def readHeartbeat (files : Files) : Option String :=
  (files HEARTBEAT_PATH.path.location).bind fun file => stringFromUtf8 file.bytes

/-- `check`. -/
def check (files : Files) (now : SystemTime) (maxAge : Duration) : Except String Unit :=
  match readHeartbeat files with
  | none => .error "尚无心跳记录（可能刚启动，还没跑完第一次探测）"
  | some content => evaluate content (nowSecs now) maxAge

/-- Only heartbeats are written to the file. -/
def OnlyBeats (es : List Event) : Prop :=
  ∀ target random contents, .call target random contents ∈ es → target.path.location = HEARTBEAT_PATH.path.location →
    ∃ beat : Beat, contents = Text.asBytes beat.text

/-- What is in the file at first, if anything, is a heartbeat. -/
def Clean (files : Files) : Prop :=
  ∀ file, files HEARTBEAT_PATH.path.location = some file → ∃ beat : Beat, file.bytes = Text.asBytes beat.text

private theorem stringFromUtf8_asBytes (s : String) : stringFromUtf8 (Text.asBytes s) = some s :=
  dif_pos s.isValidUTF8

/-- Every heartbeat is written like a success. -/
private theorem Beat.exists_recordSuccess (beat : Beat) :
    ∃ recorded, beat.text = recordSuccess recorded ∧ beat.second = nowSecs recorded := by
  cases beat with
  | invalidated =>
    have hzero : nowSecs (.ofSecs 0 (by decide)) = 0 := by decide
    refine ⟨.ofSecs 0 (by decide), ?_, hzero.symm⟩
    rw [recordSuccess, hzero]
    decide
  | succeeded now => exact ⟨now, rfl, rfl⟩

/-- What a check says about a heartbeat. -/
def Beat.verdict (beat : Beat) (now : SystemTime) (maxAge : Duration) : Except String Unit :=
  let age := nowSecs now - beat.second
  if maxAge.secs < age then .error s!"心跳已过期（{age}s 未更新，运行期健康检查循环可能已卡住）" else .ok ()

/-- A heartbeat is read back as it was written. -/
private theorem evaluate_beat (beat : Beat) (now : SystemTime) (maxAge : Duration) :
    evaluate beat.text (nowSecs now) maxAge = beat.verdict now maxAge := by
  obtain ⟨recorded, htext, hsecond⟩ := beat.exists_recordSuccess
  rw [htext, Beat.verdict, hsecond, evaluate, recordSuccess, (Text.noWhitespace_toString _).trim_append_newline,
    Text.parseUnsigned_toString (nowSecs_lt recorded)]

private theorem Beat.verdict_ne_malformed (beat : Beat) (now : SystemTime) (maxAge : Duration) :
    beat.verdict now maxAge ≠ .error "心跳文件格式异常" := by
  unfold Beat.verdict
  dsimp only
  split
  · intro heq
    -- the texts differ in their third character
    have htext := congrArg (fun s => s.toList[2]?) (Except.error.inj heq)
    simp only [String.toList_append, List.append_assoc] at htext
    rw [List.getElem?_append_left (by decide)] at htext
    revert htext
    decide
  · exact fun heq => nomatch heq

private theorem check_of_beat {files : Files} {file : File} (hfile : files HEARTBEAT_PATH.path.location = some file)
    {beat : Beat} (hbeat : file.bytes = Text.asBytes beat.text) (now : SystemTime) (maxAge : Duration) :
    check files now maxAge = beat.verdict now maxAge := by
  have hread : readHeartbeat files = some beat.text := by
    rw [readHeartbeat, hfile, Option.bind_some, hbeat, stringFromUtf8_asBytes]
  rw [check, hread]
  exact evaluate_beat beat now maxAge

/-- Whatever process is killed and whatever operation fails, a check at any instant judges the last heartbeat that
was written in full, or what was there before the first one; it never finds a part of a heartbeat. -/
theorem check_exact (files₀ : Files) (hclean : Clean files₀) (es : List Event) (hbeats : OnlyBeats es) (w : World)
    (h : Machine.exec World.step (.start files₀) es = some w) (now : SystemTime) (maxAge : Duration) :
    (w.lastAt HEARTBEAT_PATH.path.location = none → check w.files now maxAge = check files₀ now maxAge) ∧
    (∀ c, w.lastAt HEARTBEAT_PATH.path.location = some c → ∃ beat : Beat, c.contents = Text.asBytes beat.text ∧
      check w.files now maxAge = beat.verdict now maxAge) ∧
    check w.files now maxAge ≠ .error "心跳文件格式异常" := by
  have htarget := (FsUtil.sound_exec h).target HEARTBEAT_PATH
  unfold FsUtil.current at htarget
  cases hlast : w.lastAt HEARTBEAT_PATH.path.location with
  | none =>
    rw [hlast] at htarget
    have hsame : check w.files now maxAge = check files₀ now maxAge := by
      unfold check readHeartbeat
      rw [htarget]
    refine ⟨fun _ => hsame, fun c hc => (nomatch hc), ?_⟩
    rw [hsame]
    cases hfile : files₀ HEARTBEAT_PATH.path.location with
    | none => simp [check, readHeartbeat, hfile]
    | some file =>
      obtain ⟨beat, hbeat⟩ := hclean file hfile
      rw [check_of_beat hfile hbeat]
      exact beat.verdict_ne_malformed now maxAge
  | some c =>
    rw [hlast] at htarget
    obtain ⟨hlocation, hcall⟩ := FsUtil.requested_lastAt h hlast
    obtain ⟨beat, hbeat⟩ := hbeats c.target c.random c.contents hcall hlocation
    have hcheck := check_of_beat htarget hbeat now maxAge
    refine ⟨fun hnone => (nomatch hnone), fun c' hc' => ?_, ?_⟩
    · cases hc'
      exact ⟨beat, hbeat, hcheck⟩
    · rw [hcheck]
      exact beat.verdict_ne_malformed now maxAge

/-- A check in the middle of a write, behind a heartbeat that was written in full. -/
theorem check_exact_mid_write :
    let beat : Beat := .succeeded (.ofSecs 100 (by decide))
    let es : List Event :=
      [.call HEARTBEAT_PATH 1 (Text.asBytes Beat.invalidated.text), .step 0 .done, .step 0 (.wrote 2), .step 0 .done,
        .call HEARTBEAT_PATH 2 (Text.asBytes beat.text), .step 1 .done, .step 1 (.wrote 1)]
    ∃ w, Machine.exec World.step (.start fun _ => none) es = some w ∧
      check w.files (.ofSecs 101 (by decide)) (.fromSecs 30) ≠ .error "心跳文件格式异常" := by
  intro beat es
  obtain ⟨w, hw⟩ := Option.isSome_iff_exists.1
    (by decide +kernel : (Machine.exec World.step (.start fun _ => none) es).isSome = true)
  have hbeats : OnlyBeats es := by
    intro target random contents hmem _
    simp only [es, List.mem_cons, FsUtil.Event.call.injEq, reduceCtorEq, false_or, List.not_mem_nil, or_false] at hmem
    rcases hmem with ⟨-, -, rfl⟩ | ⟨-, -, rfl⟩
    · exact ⟨.invalidated, rfl⟩
    · exact ⟨beat, rfl⟩
  have hclean : Clean fun _ => none := fun _ h => nomatch h
  exact ⟨w, hw, (check_exact _ hclean es hbeats w hw _ _).2.2⟩

end WarpSocks.Health
