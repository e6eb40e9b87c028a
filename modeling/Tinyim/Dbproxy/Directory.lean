import Tinyim.Common.Messages

/-! The table `group_members` and the two selections from it. A client asks for its groups once,
when it starts; logic asks for the members of a group at every message. -/
namespace Tinyim.Dbproxy

structure GroupMember where
  groupId : Int
  groupName : Text
  userId : Int
  userName : Text
  deriving DecidableEq, Repr

structure GroupInfo where
  groupId : Int
  name : Text
  deriving DecidableEq, Repr

structure UserInfo where
  userId : Int
  name : Text
  deriving DecidableEq, Repr

/-- The statement of `GetGroups`. -/
def getGroups (groupMembers : List GroupMember) (userId : Int) : List GroupInfo :=
  (groupMembers.filter (·.userId = userId)).map fun row => ⟨row.groupId, row.groupName⟩

/-- The statement of `GetGroupMembers`. -/
def getGroupMembers (groupMembers : List GroupMember) (groupId : Int) : List UserInfo :=
  (groupMembers.filter (·.groupId = groupId)).map fun row => ⟨row.userId, row.userName⟩

/-- The two statements read one relation from both sides. -/
theorem mem_groups_iff_mem_members (groupMembers : List GroupMember) (userId groupId : Int) :
    groupId ∈ (getGroups groupMembers userId).map GroupInfo.groupId ↔
      userId ∈ (getGroupMembers groupMembers groupId).map UserInfo.userId := by
  simp only [getGroups, getGroupMembers, List.map_map, List.mem_map, List.mem_filter,
    Function.comp_apply, decide_eq_true_eq]
  constructor
  · rintro ⟨row, ⟨listed, own⟩, group⟩
    exact ⟨row, ⟨listed, group⟩, own⟩
  · rintro ⟨row, ⟨listed, group⟩, own⟩
    exact ⟨row, ⟨listed, own⟩, group⟩

end Tinyim.Dbproxy
