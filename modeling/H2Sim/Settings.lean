import H2Sim.SendDrain

/-! `h2_settings_init` and `h2_sess_send_settings` (lines 386-443): the initial SETTINGS of
an HTTP/2 session. Each field of `h2_settings` that is not negative becomes one entry of the
16-entry array `iv`, in a fixed order; the array goes to `nghttp2_submit_settings` and the
frame out through `h2_sess_send`. -/
namespace H2Sim

/-- `h2_settings` (its header is not part of the source): a value for each SETTINGS
parameter, negative to leave it out. -/
structure H2Settings where
  headerTableSize : Int
  enablePush : Int
  maxConcurrentStreams : Int
  initialWindowSize : Int
  maxFrameSize : Int
  maxHeaderListSize : Int
  enableConnectProtocol : Int
  deriving DecidableEq, Repr

/-- `h2_settings_init`: every parameter left out. -/
def h2SettingsInit : H2Settings := ⟨-1, -1, -1, -1, -1, -1, -1⟩

/-- The `NGHTTP2_SETTINGS_*` ids the code uses. -/
inductive SettingsId where
  | headerTableSize
  | enablePush
  | maxConcurrentStreams
  | initialWindowSize
  | maxFrameSize
  | maxHeaderListSize
  | enableConnectProtocol
  deriving DecidableEq, Repr

/-- `nghttp2_settings_entry`. -/
structure SettingsEntry where
  settingsId : SettingsId
  value : Int
  deriving DecidableEq, Repr

/-- One `if (settings->f >= 0) { iv[iv_num].settings_id = id; iv[iv_num++].value =
settings->f; }` of lines 405-432: the entries it appends. -/
def settingsEntry (id : SettingsId) (v : Int) : List SettingsEntry :=
  if 0 ≤ v then [⟨id, v⟩] else []

/-- `iv[0, iv_num)` as lines 404-433 fill it; a NULL `settings` fills nothing. -/
def settingsIv : Option H2Settings → List SettingsEntry
  | none => []
  | some st =>
    settingsEntry .headerTableSize st.headerTableSize ++
    settingsEntry .enablePush st.enablePush ++
    settingsEntry .maxConcurrentStreams st.maxConcurrentStreams ++
    settingsEntry .initialWindowSize st.initialWindowSize ++
    settingsEntry .maxFrameSize st.maxFrameSize ++
    settingsEntry .maxHeaderListSize st.maxHeaderListSize ++
    settingsEntry .enableConnectProtocol st.enableConnectProtocol

/-- `h2_sess_send_settings`; `submit` is `nghttp2_submit_settings` (`none` for a non-zero return),
and `h2_sess_send` runs as its unbounded loop. -/
def h2SessSendSettings (b : Build) (bufSize cap : Nat) (nets : Nat → Net)
    (submit : Codec → List SettingsEntry → Option Codec) (s : Sess) (l : Link)
    (settings : Option H2Settings) : Int × Sess × Link :=
  if s.httpVer ≠ .v2 then (0, s, l)
  else
    match submit s.ngSess (settingsIv settings) with
    | none => (-1, s, l)
    | some cd =>
      let s := { s with ngSess := cd }
      h2SessSend b bufSize cap nets (s.sendBacklog + 1) 0 s l

theorem settingsEntry_length_le (id : SettingsId) (v : Int) : (settingsEntry id v).length ≤ 1 := by
  unfold settingsEntry; split_ifs <;> simp

/-- `iv_num` never passes 7, so the writes of lines 405-432 stay inside the 16 entries of `iv`. -/
theorem settingsIv_length_le (st : Option H2Settings) : (settingsIv st).length ≤ 7 := by
  cases st with
  | none => simp [settingsIv]
  | some st =>
    show _ ≤ 1 + 1 + 1 + 1 + 1 + 1 + 1
    simp only [settingsIv, List.length_append]
    apply_rules [Nat.add_le_add, settingsEntry_length_le]

end H2Sim
