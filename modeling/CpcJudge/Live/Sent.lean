import CpcJudge.Live.Daemon
import Mathlib.Data.List.DropRight

/-!
# `Live.Sent` — what a socket is sent

Once a socket follows the bus, the last message it was shown is never older than any that is kept (`Following`). So a
filter set later finds nothing to catch up with, and everything the socket is sent after its first filter is what is
posted from then on.
-/

namespace CpcJudge
namespace Live

variable {d : Daemon} {c : ℕ} {socket : Socket} {message : Message} {messages : List Message} {channels : List String}
  {filter : Option (List (Option String))} {event : Event}
  {events before after : List Event} {sent : List Reply} {start : ℤ}

/-! ## Catching up -/

/-- The ids of a list of messages grow. -/
def Increasing (messages : List Message) : Prop := messages.Pairwise fun m m' => m.id < m'.id

instance : Decidable (Increasing messages) := inferInstanceAs (Decidable (List.Pairwise _ _))

/-- The messages newer than `start` on a list of channels. -/
def newer (start : ℤ) (channels : List String) (messages : List Message) : List Message :=
  messages.filter fun message => start < message.id ∧ message.channel ∈ channels

theorem newer_cons : newer start channels (message :: messages) =
    (if start < message.id ∧ message.channel ∈ channels then [message] else []) ++ newer start channels messages := by
  unfold newer
  by_cases hwanted : start < message.id ∧ message.channel ∈ channels
  · rw [List.filter_cons_of_pos (by simpa using hwanted), if_pos hwanted]
    rfl
  · rw [List.filter_cons_of_neg (by simpa using hwanted), if_neg hwanted]
    rfl

theorem newer_eq_nil (hseen : ∀ m ∈ messages, m.id ≤ start) : newer start channels messages = [] := by
  apply List.filter_eq_nil_iff.mpr
  intro m hm hwanted
  have hnew : start < m.id := (of_decide_eq_true hwanted).1
  exact absurd (hseen m hm) (not_le.mpr hnew)

/-- Messages newer than an id that is older than all of them. -/
theorem newer_of_lt {start' : ℤ} (hless : ∀ m ∈ messages, start < m.id) (hless' : ∀ m ∈ messages, start' < m.id) :
    newer start channels messages = newer start' channels messages := by
  apply List.filter_congr
  intro m hm
  simp [hless m hm, hless' m hm]

/-- Catching up sends the messages that are newer than the last one shown, and shows all of them. -/
theorem catchUp_spec (hincreasing : Increasing messages) (socket : Socket) :
    (catchUp messages socket).filter = socket.filter ∧
      (catchUp messages socket).sent = socket.sent ++ (newer socket.lastMsg socket.filter messages).map .message ∧
      socket.lastMsg ≤ (catchUp messages socket).lastMsg ∧
      ∀ m ∈ messages, m.id ≤ (catchUp messages socket).lastMsg := by
  induction messages generalizing socket with
  | nil => exact ⟨rfl, (List.append_nil _).symm, le_rfl, fun m hm => absurd hm List.not_mem_nil⟩
  | cons message messages ih =>
      obtain ⟨hfirst, hrest⟩ := List.pairwise_cons.mp hincreasing
      by_cases hnew : socket.lastMsg < message.id
      · -- the message is shown, and sent if its channel is wanted
        have hstep : catchUp (message :: messages) socket = catchUp messages (socket.gotMessage message) := by
          unfold catchUp
          rw [List.foldl_cons, if_pos hnew]
        obtain ⟨hfilter, hsent, hlast, hseen⟩ := ih hrest (socket.gotMessage message)
        rw [hstep]
        refine ⟨hfilter, ?_, hnew.le.trans hlast, ?_⟩
        · rw [hsent, Socket.gotMessage_lastMsg, Socket.gotMessage_filter, Socket.gotMessage_sent, newer_cons,
            newer_of_lt hfirst fun m hm => hnew.trans (hfirst m hm), List.map_append, List.append_assoc]
          congr 2
          by_cases hwanted : message.channel ∈ socket.filter
          · rw [if_pos hwanted, if_pos ⟨hnew, hwanted⟩]
            rfl
          · rw [if_neg hwanted, if_neg fun h => hwanted h.2]
            rfl
        · intro m hm
          rcases List.mem_cons.mp hm with rfl | hm
          · exact hlast
          · exact hseen m hm
      · -- the message was shown before
        have hstep : catchUp (message :: messages) socket = catchUp messages socket := by
          unfold catchUp
          rw [List.foldl_cons, if_neg hnew]
        obtain ⟨hfilter, hsent, hlast, hseen⟩ := ih hrest socket
        rw [hstep]
        refine ⟨hfilter, ?_, hlast, ?_⟩
        · rw [hsent, newer_cons, if_neg fun h => hnew h.1, List.nil_append]
        · intro m hm
          rcases List.mem_cons.mp hm with rfl | hm
          · exact (not_lt.mp hnew).trans hlast
          · exact hseen m hm

/-! ## The process -/

/-- The messages kept are in order, none is newer than the last id given, and no socket follows twice. -/
structure Sound (d : Daemon) : Prop where
  increasing : Increasing d.messages
  le_last : ∀ m ∈ d.messages, m.id ≤ d.messageId
  once : d.followers.Nodup

/-- A socket that has not set a filter. -/
structure Waiting (d : Daemon) (c : ℕ) (start : ℤ) : Prop where
  outside : c ∉ d.followers
  socket : d.sockets c = { lastMsg := start }

/-- A socket that has, and what it was sent. -/
structure Following (d : Daemon) (c : ℕ) (channels : List String) (sent : List Reply) : Prop where
  inside : c ∈ d.followers
  filter : (d.sockets c).filter = channels
  sent : (d.sockets c).sent = sent
  shown : ∀ m ∈ d.messages, m.id ≤ (d.sockets c).lastMsg

/-- Passing a message to the followers writes each of them once, and no other socket. -/
theorem each_follower {followers : List ℕ} (honce : followers.Nodup) (sockets : ℕ → Socket) (message : Message) (i : ℕ) :
    followers.foldl (fun sockets i => Function.update sockets i ((sockets i).gotMessage message)) sockets i =
      if i ∈ followers then (sockets i).gotMessage message else sockets i := by
  induction followers generalizing sockets with
  | nil => rfl
  | cons first followers ih =>
      obtain ⟨hfirst, hrest⟩ := List.nodup_cons.mp honce
      rw [List.foldl_cons, ih hrest]
      by_cases heq : i = first
      · subst heq
        rw [if_neg hfirst, Function.update_self, if_pos List.mem_cons_self]
      · rw [Function.update_of_ne heq]
        by_cases hin : i ∈ followers
        · rw [if_pos hin, if_pos (List.mem_cons_of_mem _ hin)]
        · rw [if_neg hin, if_neg]
          rintro (_ | ⟨_, hmem⟩)
          · exact heq rfl
          · exact hin hmem

namespace Daemon

theorem post_messages_sublist (d : Daemon) (channel text : String) :
    (d.post channel text).messages.Sublist (d.messages ++ [⟨d.messageId + 1, channel, text⟩]) := by
  show (if _ then _ else _ : List Message).Sublist _
  split
  · exact List.tail_sublist _
  · exact List.Sublist.refl _

theorem post_socket (hsound : Sound d) (channel text : String) (c : ℕ) : (d.post channel text).sockets c =
    if c ∈ d.followers then (d.sockets c).gotMessage ⟨d.messageId + 1, channel, text⟩ else d.sockets c :=
  each_follower hsound.once _ _ _

theorem setFilter_of_ne {i : ℕ} (hne : c ≠ i) (filter : Option (List (Option String))) :
    (d.setFilter i filter).sockets c = d.sockets c := by
  unfold setFilter
  split
  · exact Function.update_of_ne hne _ _
  · exact Function.update_of_ne hne _ _

theorem mem_setFilter_of_ne {i : ℕ} (hne : c ≠ i) (filter : Option (List (Option String))) :
    c ∈ (d.setFilter i filter).followers ↔ c ∈ d.followers := by
  unfold setFilter
  split
  · show c ∈ (if i ∈ d.followers then d.followers else d.followers ++ [i]) ↔ _
    split
    · exact Iff.rfl
    · rw [List.mem_append, List.mem_singleton]
      exact or_iff_left hne
  · exact Iff.rfl

@[simp] theorem setFilter_messages (i : ℕ) (filter : Option (List (Option String))) :
    (d.setFilter i filter).messages = d.messages := by
  unfold setFilter
  split
  · rfl
  · rfl

@[simp] theorem setFilter_messageId (i : ℕ) (filter : Option (List (Option String))) :
    (d.setFilter i filter).messageId = d.messageId := by
  unfold setFilter
  split
  · rfl
  · rfl

@[simp] theorem poll_messages (i : ℕ) (last : ℤ) (channels : List String) :
    (d.poll i last channels).messages = d.messages := by
  unfold poll
  split
  · rfl
  · rfl

@[simp] theorem poll_messageId (i : ℕ) (last : ℤ) (channels : List String) :
    (d.poll i last channels).messageId = d.messageId := by
  unfold poll
  split
  · rfl
  · rfl

@[simp] theorem poll_followers (i : ℕ) (last : ℤ) (channels : List String) :
    (d.poll i last channels).followers = d.followers := by
  unfold poll
  split
  · rfl
  · rfl

@[simp] theorem poll_sockets (i : ℕ) (last : ℤ) (channels : List String) :
    (d.poll i last channels).sockets = d.sockets := by
  unfold poll
  split
  · rfl
  · rfl

end Daemon

open Daemon

theorem Sound.step (hsound : Sound d) (event : Event) : Sound (d.step event) := by
  cases event with
  | post channel text =>
      have hsublist := d.post_messages_sublist channel text
      refine ⟨?_, ?_, hsound.once⟩
      · refine List.Pairwise.sublist hsublist (List.pairwise_append.mpr ⟨hsound.increasing, List.pairwise_singleton _ _, ?_⟩)
        intro m hm m' hm'
        rw [List.mem_singleton.mp hm']
        exact Int.lt_add_one_iff.mpr (hsound.le_last m hm)
      · intro m hm
        show m.id ≤ d.messageId + 1
        rcases List.mem_append.mp (hsublist.subset hm) with hold | hnew
        · exact (hsound.le_last m hold).trans (Int.le_add_one le_rfl)
        · rw [List.mem_singleton.mp hnew]
  | startMsg i start => exact ⟨hsound.increasing, hsound.le_last, hsound.once⟩
  | setFilter i filter =>
      refine ⟨?_, ?_, ?_⟩
      · show Increasing (d.setFilter i filter).messages
        rw [setFilter_messages]
        exact hsound.increasing
      · show ∀ m ∈ (d.setFilter i filter).messages, m.id ≤ (d.setFilter i filter).messageId
        rw [setFilter_messages, setFilter_messageId]
        exact hsound.le_last
      · show (d.setFilter i filter).followers.Nodup
        unfold Daemon.setFilter
        split
        · show (if i ∈ d.followers then d.followers else d.followers ++ [i]).Nodup
          split
          · exact hsound.once
          · rename_i hout
            refine List.nodup_append.mpr ⟨hsound.once, List.nodup_singleton _, ?_⟩
            intro j hj k hk hsame
            rw [List.mem_singleton] at hk
            rw [hsame, hk] at hj
            exact hout hj
        · exact hsound.once
  | close i => exact ⟨hsound.increasing, hsound.le_last, hsound.once.filter _⟩
  | poll i last channels =>
      refine ⟨?_, ?_, ?_⟩
      · show Increasing (d.poll i last channels).messages
        rw [poll_messages]
        exact hsound.increasing
      · show ∀ m ∈ (d.poll i last channels).messages, m.id ≤ (d.poll i last channels).messageId
        rw [poll_messages, poll_messageId]
        exact hsound.le_last
      · show (d.poll i last channels).followers.Nodup
        rw [poll_followers]
        exact hsound.once
  | giveUp i => exact ⟨hsound.increasing, hsound.le_last, hsound.once⟩

theorem Sound.run (hsound : Sound d) (events : List Event) : Sound (d.run events) := by
  induction events generalizing d with
  | nil => exact hsound
  | cons event events ih => exact ih (hsound.step event)

/-! ## One socket -/

/-- Before its first filter the socket `c` only says where it starts. -/
def Event.Starts (c : ℕ) : Event → Prop
  | .setFilter i _ => i ≠ c
  | .close i => i ≠ c
  | _ => True

/-- From then on it only sets filters that are valid. -/
def Event.Filters (c : ℕ) : Event → Prop
  | .setFilter i filter => i = c → (validFilter filter).isSome
  | .startMsg i _ => i ≠ c
  | .close i => i ≠ c
  | _ => True

instance : DecidablePred (Event.Starts c)
  | .setFilter i _ => inferInstanceAs (Decidable (i ≠ c))
  | .close i => inferInstanceAs (Decidable (i ≠ c))
  | .post _ _ | .startMsg _ _ | .poll _ _ _ | .giveUp _ => inferInstanceAs (Decidable True)

instance : DecidablePred (Event.Filters c)
  | .setFilter i filter => inferInstanceAs (Decidable (i = c → (validFilter filter).isSome))
  | .startMsg i _ => inferInstanceAs (Decidable (i ≠ c))
  | .close i => inferInstanceAs (Decidable (i ≠ c))
  | .post _ _ | .poll _ _ _ | .giveUp _ => inferInstanceAs (Decidable True)

/-- Where the socket starts after an event. -/
def startAfter (c : ℕ) (start : ℤ) : Event → ℤ
  | .startMsg i start' => if i = c then start' else start
  | _ => start

/-- Where the socket starts after the events: the last `start_msg` counts. -/
def lastStart (c : ℕ) (events : List Event) : ℤ := events.foldl (startAfter c) 0

/-- The filter of the socket after an event. -/
def filterAfter (c : ℕ) (channels : List String) : Event → List String
  | .setFilter i filter => if i = c then (validFilter filter).getD channels else channels
  | _ => channels

/-- The messages posted, the first of them with the id after `id`. -/
def posted (id : ℤ) : List Event → List Message
  | [] => []
  | .post channel text :: events => ⟨id + 1, channel, text⟩ :: posted (id + 1) events
  | _ :: events => posted id events

/-- The messages posted on a channel of the filter that is in force then. -/
def postedTo (c : ℕ) (id : ℤ) (channels : List String) : List Event → List Message
  | [] => []
  | .post channel text :: events =>
      (if channel ∈ channels then [⟨id + 1, channel, text⟩] else []) ++ postedTo c (id + 1) channels events
  | event :: events => postedTo c id (filterAfter c channels event) events

theorem filterAfter_self {channels' : List String} (hvalid : validFilter filter = some channels') :
    filterAfter c channels (.setFilter c filter) = channels' := by
  show (if c = c then (validFilter filter).getD channels else channels) = channels'
  rw [if_pos rfl, hvalid, Option.getD_some]

theorem filterAfter_of_ne {i : ℕ} (hne : i ≠ c) (filter : Option (List (Option String))) :
    filterAfter c channels (.setFilter i filter) = channels := if_neg hne

theorem postedTo_setFilter (id : ℤ) (i : ℕ) (filter : Option (List (Option String))) (events : List Event) :
    postedTo c id channels (.setFilter i filter :: events) =
      postedTo c id (filterAfter c channels (.setFilter i filter)) events := rfl

theorem Waiting.step (hwaiting : Waiting d c start) (hsound : Sound d) (hevent : event.Starts c) :
    Waiting (d.step event) c (startAfter c start event) := by
  obtain ⟨houtside, hsocket⟩ := hwaiting
  cases event with
  | post channel text =>
      refine ⟨houtside, ?_⟩
      show (d.post channel text).sockets c = _
      rw [post_socket hsound, if_neg houtside]
      exact hsocket
  | startMsg i start' =>
      refine ⟨houtside, ?_⟩
      show Function.update d.sockets i _ c = { lastMsg := if i = c then start' else start }
      by_cases heq : i = c
      · subst heq
        rw [Function.update_self, if_pos rfl, hsocket]
      · rw [Function.update_of_ne (Ne.symm heq), if_neg heq]
        exact hsocket
  | setFilter i filter =>
      have hne : c ≠ i := Ne.symm hevent
      refine ⟨?_, ?_⟩
      · show c ∉ (d.setFilter i filter).followers
        rw [mem_setFilter_of_ne hne]
        exact houtside
      · show (d.setFilter i filter).sockets c = _
        rw [setFilter_of_ne hne]
        exact hsocket
  | close i => exact ⟨fun hin => houtside (List.mem_filter.mp hin).1, hsocket⟩
  | poll i last channels =>
      refine ⟨?_, ?_⟩
      · show c ∉ (d.poll i last channels).followers
        rw [poll_followers]
        exact houtside
      · show (d.poll i last channels).sockets c = _
        rw [poll_sockets]
        exact hsocket
  | giveUp i => exact ⟨houtside, hsocket⟩

theorem Waiting.run (hwaiting : Waiting d c start) (hsound : Sound d) (hevents : ∀ event ∈ events, event.Starts c) :
    Waiting (d.run events) c (events.foldl (startAfter c) start) := by
  induction events generalizing d start with
  | nil => exact hwaiting
  | cons event events ih =>
      exact ih (hwaiting.step hsound (hevents event List.mem_cons_self)) (hsound.step event)
        fun later hlater => hevents later (List.mem_cons_of_mem _ hlater)

/-- The first filter: the socket catches up, and follows from then on. -/
theorem Waiting.setFilter (hwaiting : Waiting d c start) (hsound : Sound d) (hvalid : validFilter filter = some channels) :
    Following (d.setFilter c filter) c channels ((newer start channels d.messages).map .message) := by
  have hstep : (d.setFilter c filter).sockets c = catchUp d.messages { lastMsg := start, filter := channels } := by
    unfold Daemon.setFilter
    rw [hvalid]
    dsimp only
    rw [Function.update_self, hwaiting.socket]
  obtain ⟨hfilter, hsent, -, hshown⟩ := catchUp_spec hsound.increasing { lastMsg := start, filter := channels }
  refine ⟨?_, ?_, ?_, ?_⟩
  · unfold Daemon.setFilter
    rw [hvalid]
    show c ∈ (if c ∈ d.followers then d.followers else d.followers ++ [c])
    rw [if_neg hwaiting.outside]
    exact List.mem_append_right _ List.mem_cons_self
  · rw [hstep, hfilter]
  · rw [hstep, hsent]
    rfl
  · rw [hstep, setFilter_messages]
    exact hshown

/-- A message posted goes to a socket that follows if its channel is in the filter. -/
theorem Following.post (hfollowing : Following d c channels sent) (hsound : Sound d) (channel text : String) :
    Following (d.post channel text) c channels
      (sent ++ ((if channel ∈ channels then [⟨d.messageId + 1, channel, text⟩] else []) : List Message).map .message) := by
  have hstep : (d.post channel text).sockets c = (d.sockets c).gotMessage ⟨d.messageId + 1, channel, text⟩ := by
    rw [post_socket hsound, if_pos hfollowing.inside]
  refine ⟨hfollowing.inside, ?_, ?_, ?_⟩
  · rw [hstep]
    exact hfollowing.filter
  · rw [hstep, Socket.gotMessage_sent, hfollowing.sent, hfollowing.filter]
    by_cases hwanted : channel ∈ channels
    · rw [if_pos hwanted, if_pos hwanted]
      rfl
    · rw [if_neg hwanted, if_neg hwanted]
      rfl
  · rw [hstep]
    exact (hsound.step (.post channel text)).le_last

/-- A later filter: there is nothing to catch up with. -/
theorem Following.setFilter {channels' : List String} (hfollowing : Following d c channels sent) (hsound : Sound d)
    (hvalid : validFilter filter = some channels') : Following (d.setFilter c filter) c channels' sent := by
  have hstep : (d.setFilter c filter).sockets c = catchUp d.messages { d.sockets c with filter := channels' } := by
    unfold Daemon.setFilter
    rw [hvalid]
    exact Function.update_self _ _ _
  obtain ⟨hfilter, hsent, -, hshown⟩ := catchUp_spec hsound.increasing { d.sockets c with filter := channels' }
  refine ⟨?_, ?_, ?_, ?_⟩
  · unfold Daemon.setFilter
    rw [hvalid]
    show c ∈ (if c ∈ d.followers then d.followers else d.followers ++ [c])
    rw [if_pos hfollowing.inside]
    exact hfollowing.inside
  · rw [hstep, hfilter]
  · rw [hstep, hsent, newer_eq_nil hfollowing.shown]
    show (d.sockets c).sent ++ [] = sent
    rw [List.append_nil, hfollowing.sent]
  · rw [hstep, setFilter_messages]
    exact hshown

/-- What the events of others leave of a socket that follows. -/
theorem Following.of_same {d' : Daemon} (hfollowing : Following d c channels sent) (hinside : c ∈ d'.followers)
    (hsocket : d'.sockets c = d.sockets c) (hmessages : d'.messages = d.messages) : Following d' c channels sent := by
  refine ⟨hinside, ?_, ?_, ?_⟩
  · rw [hsocket, hfollowing.filter]
  · rw [hsocket, hfollowing.sent]
  · rw [hsocket, hmessages]
    exact hfollowing.shown

theorem Following.run (hfollowing : Following d c channels sent) (hsound : Sound d)
    (hevents : ∀ event ∈ events, event.Filters c) : Following (d.run events) c (events.foldl (filterAfter c) channels)
      (sent ++ (postedTo c d.messageId channels events).map .message) := by
  induction events generalizing d channels sent with
  | nil =>
      rw [postedTo, List.map_nil, List.append_nil]
      exact hfollowing
  | cons event events ih =>
      have hlater : ∀ later ∈ events, later.Filters c := fun later hlater => hevents later (List.mem_cons_of_mem _ hlater)
      have hsound' : Sound (d.step event) := hsound.step event
      cases event with
      | post channel text =>
          have hnext := ih (hfollowing.post hsound channel text) hsound' hlater
          rw [List.append_assoc, ← List.map_append] at hnext
          exact hnext
      | startMsg i start =>
          have hne : i ≠ c := hevents (.startMsg i start) List.mem_cons_self
          exact ih (hfollowing.of_same hfollowing.inside (Function.update_of_ne hne.symm _ _) rfl) hsound' hlater
      | setFilter i filter =>
          by_cases heq : i = c
          · subst heq
            have hsome : (validFilter filter).isSome := hevents (.setFilter i filter) List.mem_cons_self rfl
            obtain ⟨channels', hvalid⟩ := Option.isSome_iff_exists.mp hsome
            have hnext := ih (hfollowing.setFilter hsound hvalid) hsound' hlater
            rw [setFilter_messageId] at hnext
            rw [List.foldl_cons, postedTo_setFilter, filterAfter_self hvalid]
            exact hnext
          · have hne : c ≠ i := Ne.symm heq
            have hsame : Following (d.setFilter i filter) c channels sent :=
              hfollowing.of_same ((mem_setFilter_of_ne hne filter).mpr hfollowing.inside) (setFilter_of_ne hne filter)
                (setFilter_messages i filter)
            have hnext := ih hsame hsound' hlater
            rw [setFilter_messageId] at hnext
            rw [List.foldl_cons, postedTo_setFilter, filterAfter_of_ne heq]
            exact hnext
      | close i =>
          have hne : i ≠ c := hevents (.close i) List.mem_cons_self
          have hinside : c ∈ (d.close i).followers :=
            List.mem_filter.mpr ⟨hfollowing.inside, decide_eq_true hne.symm⟩
          exact ih (hfollowing.of_same hinside rfl rfl) hsound' hlater
      | poll i last channels' =>
          have hsame : Following (d.poll i last channels') c channels sent := by
            refine hfollowing.of_same ?_ ?_ (poll_messages i last channels')
            · rw [poll_followers]
              exact hfollowing.inside
            · rw [poll_sockets]
          have hnext := ih hsame hsound' hlater
          rw [poll_messageId] at hnext
          exact hnext
      | giveUp i => exact ih (hfollowing.of_same hfollowing.inside rfl rfl) hsound' hlater

/-! ## What is kept -/

theorem posted_append (id : ℤ) (events later : List Event) :
    posted id (events ++ later) = posted id events ++ posted (id + (posted id events).length) later := by
  induction events generalizing id with
  | nil => simp [posted]
  | cons event events ih =>
      cases event with
      | post channel text =>
          simp only [List.cons_append, posted, ih, List.length_cons]
          congr 3
          push_cast
          ring
      | startMsg | setFilter | close | poll | giveUp => exact ih id

theorem posted_increasing (id : ℤ) (events : List Event) :
    Increasing (posted id events) ∧ ∀ m ∈ posted id events, id < m.id := by
  induction events generalizing id with
  | nil => exact ⟨List.Pairwise.nil, fun m hm => absurd hm List.not_mem_nil⟩
  | cons event events ih =>
      cases event with
      | post channel text =>
          obtain ⟨hrest, hgreater⟩ := ih (id + 1)
          refine ⟨List.pairwise_cons.mpr ⟨hgreater, hrest⟩, ?_⟩
          intro m hm
          rcases List.mem_cons.mp hm with rfl | hm
          · exact Int.lt_add_one_iff.mpr le_rfl
          · exact (Int.lt_add_one_iff.mpr le_rfl).trans (hgreater m hm)
      | startMsg | setFilter | close | poll | giveUp => exact ih id

/-- The filter only leaves messages out. -/
theorem postedTo_sublist (c : ℕ) (id : ℤ) (channels : List String) (events : List Event) :
    (postedTo c id channels events).Sublist (posted id events) := by
  induction events generalizing id channels with
  | nil => exact List.Sublist.slnil
  | cons event events ih =>
      cases event with
      | post channel text =>
          show List.Sublist (_ ++ _) (_ :: _)
          split
          · exact (ih (id + 1) channels).cons_cons _
          · exact (ih (id + 1) channels).cons _
      | startMsg | setFilter | close | poll | giveUp => exact ih id _

/-- Keeping the last messages when one is added. -/
theorem rtake_append_singleton (messages : List Message) (n : ℕ) (message : Message) :
    (if n < (messages.rtake n ++ [message]).length then (messages.rtake n ++ [message]).tail
      else messages.rtake n ++ [message]) = (messages ++ [message]).rtake n := by
  unfold List.rtake
  have hlength : (messages.drop (messages.length - n) ++ [message]).length = min messages.length n + 1 := by
    rw [List.length_append, List.length_drop, List.length_singleton]
    omega
  rw [hlength, List.length_append, List.length_singleton]
  by_cases hfull : n ≤ messages.length
  · rw [if_pos (by omega), ← List.drop_one, ← List.drop_append_of_le_length (Nat.sub_le _ _), List.drop_drop]
    congr 1
    omega
  · rw [if_neg (by omega)]
    have hall : messages.length - n = 0 := by omega
    have hall' : messages.length + 1 - n = 0 := by omega
    rw [hall, hall', List.drop_zero, List.drop_zero]

/-- The last messages posted are kept. -/
theorem run_messages (d : Daemon) (earlier : List Message) (hkept : d.messages = earlier.rtake d.maxQueue) (events : List Event) :
    (d.run events).messages = (earlier ++ posted d.messageId events).rtake d.maxQueue ∧
      (d.run events).messageId = d.messageId + (posted d.messageId events).length := by
  induction events generalizing d earlier with
  | nil => simpa [posted] using hkept
  | cons event events ih =>
      cases event with
      | post channel text =>
          have hpost : (d.post channel text).messages =
              (earlier ++ [(⟨d.messageId + 1, channel, text⟩ : Message)]).rtake (d.post channel text).maxQueue := by
            have hmax : (d.post channel text).maxQueue = d.maxQueue := rfl
            rw [← rtake_append_singleton, hmax, ← hkept]
            rfl
          obtain ⟨hmessages, hid⟩ := ih _ _ hpost
          refine ⟨?_, ?_⟩
          · rw [List.append_assoc] at hmessages
            exact hmessages
          · refine hid.trans ?_
            show d.messageId + 1 + ((posted (d.messageId + 1) events).length : ℤ) = d.messageId + ((_ :: _ : List Message).length : ℤ)
            rw [List.length_cons]
            push_cast
            ring
      | startMsg i start => exact ih _ _ hkept
      | setFilter i filter =>
          have hmax : (d.setFilter i filter).maxQueue = d.maxQueue := by
            unfold Daemon.setFilter
            split
            · rfl
            · rfl
          have hnext := ih (d.setFilter i filter) earlier (by rw [setFilter_messages, hmax]; exact hkept)
          rw [setFilter_messageId, hmax] at hnext
          exact hnext
      | close i => exact ih _ _ hkept
      | poll i last channels =>
          have hmax : (d.poll i last channels).maxQueue = d.maxQueue := by
            unfold Daemon.poll
            split
            · rfl
            · rfl
          have hnext := ih (d.poll i last channels) earlier (by rw [poll_messages, hmax]; exact hkept)
          rw [poll_messageId, hmax] at hnext
          exact hnext
      | giveUp i => exact ih _ _ hkept

/-- What a socket is due: of the messages kept when it sets its first filter the newer ones, and then what is posted. -/
def due (maxQueue : ℕ) (messageId : ℤ) (c : ℕ) (channels : List String) (before after : List Event) : List Message :=
  newer (lastStart c before) channels ((posted messageId before).rtake maxQueue) ++
    postedTo c (messageId + (posted messageId before).length) channels after

theorem due_increasing (maxQueue : ℕ) (messageId : ℤ) (c : ℕ) (channels : List String) (before after : List Event) :
    Increasing (due maxQueue messageId c channels before after) := by
  have hsublist : (due maxQueue messageId c channels before after).Sublist (posted messageId (before ++ after)) := by
    rw [posted_append]
    exact ((List.filter_sublist).trans (List.drop_sublist _ _)).append (postedTo_sublist c _ channels after)
  exact List.Pairwise.sublist hsublist (posted_increasing _ _).1

/-- A socket that says where it starts, sets a filter and then others is sent what it is due, in order and once. -/
theorem bus_delivers (maxQueue : ℕ) (messageId : ℤ) (c : ℕ) (filter : Option (List (Option String)))
    (channels : List String) (before after : List Event) (hbefore : ∀ event ∈ before, event.Starts c)
    (hvalid : validFilter filter = some channels) (hafter : ∀ event ∈ after, event.Filters c) :
    ((Daemon.run { maxQueue, messageId } (before ++ .setFilter c filter :: after)).sockets c).sent =
        (due maxQueue messageId c channels before after).map .message ∧
      Increasing (due maxQueue messageId c channels before after) := by
  refine ⟨?_, due_increasing _ _ _ _ _ _⟩
  have hsound : Sound { maxQueue, messageId } :=
    ⟨List.Pairwise.nil, fun m hm => absurd hm List.not_mem_nil, List.nodup_nil⟩
  have hwaiting : Waiting { maxQueue, messageId } c 0 := ⟨List.not_mem_nil, rfl⟩
  obtain ⟨hmessages, hid⟩ := run_messages { maxQueue, messageId } [] (List.rtake_nil _).symm before
  have hmiddle := hsound.run before
  have hfollowing := (hwaiting.run hsound hbefore).setFilter hmiddle hvalid
  have hrun := hfollowing.run (hmiddle.step (.setFilter c filter)) hafter
  rw [setFilter_messageId, hid, hmessages, List.nil_append, ← List.map_append] at hrun
  rw [run_append, run_cons]
  exact hrun.sent

/-- Two messages are kept, one of them newer than the start and on the channel; then the channel changes. -/
theorem bus_delivers_two : ((Daemon.run { maxQueue := 2, messageId := 100 }
    ([.post "a" "1", .startMsg 0 102, .post "b" "2", .post "a" "3"] ++ .setFilter 0 (some [some "a"]) ::
      [.post "b" "4", .setFilter 0 (some [some "b"]), .post "b" "5"])).sockets 0).sent =
    [.message ⟨103, "a", "3"⟩, .message ⟨105, "b", "5"⟩] :=
  (bus_delivers 2 100 0 (some [some "a"]) ["a"] [.post "a" "1", .startMsg 0 102, .post "b" "2", .post "a" "3"]
    [.post "b" "4", .setFilter 0 (some [some "b"]), .post "b" "5"] (by decide) (by decide) (by decide)).1.trans (by decide)

end Live
end CpcJudge
