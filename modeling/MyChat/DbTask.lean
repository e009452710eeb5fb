import MyChat.Database

/-! The task queue's entries and the worker that applies them one by one. -/

namespace MyChat

inductive DbTaskType
  | updateUserState
  | insertOfflineMsg
  | addFriend
  | createGroup
  | addGroupUser
  deriving DecidableEq, Repr

structure DbTaskArgs where
  type : DbTaskType
  userid : Int32 := -1
  friendid : Int32 := -1
  state : Bytes := []
  msg : Bytes := []
  toid : Int32 := -1
  groupid : Int32 := -1
  name : Bytes := []
  desc : Bytes := []
  deriving DecidableEq, Repr

/-- One turn of the worker's loop on the task it popped. -/
def dbWork (my : MySQL) (opt : DbTaskArgs) (db : Database) : Except Failure Database :=
  match opt.type with
  | .addFriend => .ok (FriendModel.insert my opt.userid opt.friendid db)
  | .addGroupUser => .ok (GroupModel.addGroup my opt.userid opt.groupid (lit "normal") db).1
  | .createGroup =>
      (GroupModel.createGroup my { name := opt.name, desc := opt.desc } db).map Prod.fst
  | .insertOfflineMsg => OfflineMsgModel.insert my opt.toid opt.msg db
  | .updateUserState =>
      .ok (UserModel.updateState my { id := opt.userid, state := opt.state } db).1

end MyChat
