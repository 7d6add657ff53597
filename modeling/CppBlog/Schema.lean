import CppBlog.Store.Table

set_option autoImplicit false

/-! # The tables

The seven tables of `sql/*.sql`. Every column is `not null`; primary keys and the
`unique (post_id,cat_id)` constraint are fields of the table types. Row ids are 32-bit integers that
the engine hands out (`integer auto_increment`, `serial`); a `datetime` is the number of seconds its
`std::tm` stands for. -/

namespace CppBlog

open Store

/-- A point in time, in seconds. -/
abbrev Tm := Nat

structure User where
  id : Int
  username : String
  password : String
deriving DecidableEq

structure Post where
  id : Int
  authorId : Int
  title : String
  abstract : String
  content : String
  publish : Tm
  commentCount : Int
  isOpen : Int
deriving DecidableEq

structure Comment where
  id : Int
  postId : Int
  author : String
  email : String
  url : String
  publishTime : Tm
  content : String
deriving DecidableEq

structure TextOption where
  id : String
  value : String
deriving DecidableEq

structure Cat where
  id : Int
  name : String
deriving DecidableEq

structure Post2Cat where
  postId : Int
  catId : Int
  publish : Tm
  isOpen : Int
deriving DecidableEq

structure Page where
  id : Int
  authorId : Int
  title : String
  content : String
  isOpen : Int
deriving DecidableEq

/-- The columns of `unique (post_id,cat_id)`. -/
def Post2Cat.key (r : Post2Cat) : Int × Int := (r.postId, r.catId)

/-- The largest `integer`. -/
abbrev maxId : Int := 2147483647

/-- A database of the blog. -/
@[ext] structure Db where
  users : AutoTable User User.id maxId
  posts : AutoTable Post Post.id maxId
  comments : AutoTable Comment Comment.id maxId
  textOptions : Table TextOption String TextOption.id
  cats : AutoTable Cat Cat.id maxId
  post2cat : Table Post2Cat (Int × Int) Post2Cat.key
  pages : AutoTable Page Page.id maxId

/-- `CPPBLOG_DBVERSION` -/
def cppblogDbversion : String := "3"

/-- The database the schema scripts create. -/
def Db.fresh : Db where
  users := .empty (by decide)
  posts := .empty (by decide)
  comments := .empty (by decide)
  textOptions := ⟨[⟨"dbversion", "3"⟩], by decide⟩
  cats := .empty (by decide)
  post2cat := .empty
  pages := .empty (by decide)

/-- The value of one text option. -/
def Db.option (d : Db) (id : String) : Option String := (d.textOptions.find? id).map TextOption.value

end CppBlog
